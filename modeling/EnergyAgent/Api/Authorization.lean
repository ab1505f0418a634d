import EnergyAgent.Api.Gateway
import EnergyAgent.Users.Issuance

/-!
# Who gets through

In JWT mode, whatever requests arrive and however their database calls interleave: nothing is written for
the administration of users, and no service is called for an actor, before the control database has
answered that the user of the token is active, with the role and the version of the token, and need not
change the password.
-/

namespace EnergyAgent.Api

open EnergyAgent.Core EnergyAgent.Lib EnergyAgent.Users

/-! ## What a request has heard -/

/-- The claims of the request's access token. -/
def tokenClaims (env : Env) (request : HttpRequest) : Option AccessToken :=
  (bearer request).bind fun token =>
    match env.decodeAccess token with
    | .claims claims => some claims
    | _ => none

/-- The actor that the access token speaks of. -/
def tokenActor (env : Env) (request : HttpRequest) : Option ActorContext :=
  (tokenClaims env request).map fun claims => ⟨claims.sub, claims.role⟩

/-- The answer vouches for the actor: the user is active and has the role and the version of the token. -/
def Vouches (env : Env) (request : HttpRequest) : (op : Op) → Ans op → Prop
  | .byId userId, answer => ∃ claims user, tokenClaims env request = some claims ∧
      answer = some user ∧ userId = claims.sub ∧ user.status = .active ∧ user.role = claims.role ∧
      user.tokenVersion = claims.tokenVersion
  | _, _ => False

/-- The answer says that the user of the token need not change the password. -/
def Settles (env : Env) (request : HttpRequest) : (op : Op) → Ans op → Prop
  | .profile userId, answer => ∃ claims user, tokenClaims env request = some claims ∧
      answer = some user ∧ userId = claims.sub ∧ user.mustChangePassword = false
  | _, _ => False

/-! ## Programs of the user service -/

section programs

variable {cause : (op : Op) → Ans op → Prop} {guarded allowed : Op → Prop} {α : Type}

theorem awaits_reporting {report : AuthError → ApiError} {Q : α → Prop} {p : Users.Call α}
    (h : p.Awaits cause guarded Q) : (reporting report p).Awaits cause guarded Q := by
  induction p with
  | ret a => exact h
  | raise e => exact trivial
  | call op k ih =>
      refine ⟨h.1, fun a ha => ?_⟩
      rcases h.2 a ha with hcause | hrest
      · exact Or.inl hcause
      · exact Or.inr (ih a hrest)

theorem uses_reporting {report : AuthError → ApiError} {p : Users.Call α} (h : p.Uses allowed) :
    (reporting report p).Uses allowed := by
  induction p with
  | ret | raise => exact trivial
  | call op k ih => exact ⟨h.1, fun a ha => ih a (h.2 a ha)⟩

/-- A user makes no administrative call on its own account. -/
theorem modest_serve (codec : Codec) (settings : AuthSettings) {request : Users.Request}
    (h : ofOwnAccount request = true) :
    (serve codec settings request).Uses fun op => ¬ administrative op = true := by
  refine (mayCall_serve codec settings request).mono fun op hop hadmin => ?_
  rw [hop.administrative hadmin] at h
  cases h

end programs

/-! ## The authentication -/

section authenticate

variable {env : Env} {request : HttpRequest}

/-- `authenticate`, in JWT mode: no actor on a public path, or the answer for the token. -/
theorem authenticate_cases (request : HttpRequest) (hjwt : env.settings.authMode = .jwt) :
    authenticate env request = .ret none ∨ (∃ e, authenticate env request = .raise e) ∨
    ∃ token, bearer request = some token ∧ request.internalApiKey = env.settings.internalApiKey ∧
      authenticate env request = (reporting .access (authenticateAccess (env.decodeAccess token)) >>=
        fun answer => Proc.raiseIf (answer.2.mustChangePassword ∧ request.path ∉ passwordChangePaths)
          .passwordChangeRequired >>= fun _ => .ret (some answer.1)) := by
  unfold authenticate
  simp only [hjwt, ne_eq, not_true_eq_false, false_or]
  by_cases hunder : underApi request.path = false
  · rw [if_pos hunder]
    exact Or.inl rfl
  rw [if_neg hunder]
  by_cases hkey : request.internalApiKey = env.settings.internalApiKey
  · rw [Proc.raiseIf, if_neg (not_not_intro hkey), Proc.ret_bind]
    by_cases hpublic : request.path ∈ publicPaths
    · rw [if_pos hpublic]
      exact Or.inl rfl
    rw [if_neg hpublic]
    cases hbearer : bearer request with
    | none => exact Or.inr (Or.inl ⟨_, rfl⟩)
    | some token => exact Or.inr (Or.inr ⟨token, rfl, hkey, rfl⟩)
  · rw [Proc.raiseIf, if_pos hkey, Proc.raise_bind]
    exact Or.inr (Or.inl ⟨_, rfl⟩)

theorem answers_byId {userId : String} {user : AppUser}
    (h : backend.Answers (.byId userId) (some user)) : user.userId = userId := by
  obtain ⟨x, s, t, hexec⟩ := h
  have hget : s.user userId = some user := congrArg Prod.fst (Option.some.inj hexec)
  exact (Table.get_eq_some hget).2

/-- What the answer for a token rests on. -/
theorem authenticateAccess_claims (claims : AccessToken) :
    authenticateAccess (.claims claims) = (ask (.byId claims.sub) >>= fun found =>
      orRaise .authTokenInvalid found >>= fun user =>
      Proc.raiseIf (user.status ≠ .active ∨ user.tokenVersion ≠ claims.tokenVersion ∨
        user.role ≠ claims.role) .authTokenInvalid >>= fun _ =>
      ask (.profile user.userId) >>= fun found => orRaise .userNotFound found >>= fun profile =>
      .ret (⟨user.userId, user.role⟩, profile)) := by
  rfl

theorem tokenClaims_eq {token : String} {claims : AccessToken} (htoken : bearer request = some token)
    (hclaims : env.decodeAccess token = .claims claims) : tokenClaims env request = some claims := by
  simp only [tokenClaims, htoken, Option.bind_some, hclaims]

/-- No actor before the user has been vouched for. -/
theorem authenticate_awaits_vouches (hjwt : env.settings.authMode = .jwt) :
    (authenticate env request).Awaits (Vouches env request) (fun op => administrative op = true)
      (· = none) := by
  rcases authenticate_cases request hjwt with hnone | ⟨e, hraise⟩ | ⟨token, htoken, -, heq⟩
  · rw [hnone]
    exact rfl
  · rw [hraise]
    trivial
  rw [heq]
  refine Proc.Awaits.bind (awaits_reporting (Q := fun _ => False) ?_) fun _ h => h.elim
  cases hclaims : env.decodeAccess token with
  | expired | invalid => exact trivial
  | claims claims =>
      rw [authenticateAccess_claims]
      refine Proc.awaits_call (by simp [administrative]) fun found hanswer hnot => ?_
      cases found with
      | none => exact trivial
      | some user =>
          refine Proc.awaits_raiseIf_bind fun hvalid => ?_
          simp only [not_or, not_not] at hvalid
          exact absurd ⟨claims, user, tokenClaims_eq htoken hclaims, rfl, rfl, hvalid.1, hvalid.2.2,
            hvalid.2.1⟩ hnot

/-- No actor before the user's password has been looked at, but on the paths of its change. -/
theorem authenticate_awaits_settles (hjwt : env.settings.authMode = .jwt) :
    (authenticate env request).Awaits (Settles env request) (fun op => administrative op = true)
      (fun actor => actor = none ∨ request.path ∈ passwordChangePaths) := by
  rcases authenticate_cases request hjwt with hnone | ⟨e, hraise⟩ | ⟨token, htoken, -, heq⟩
  · rw [hnone]
    exact Or.inl rfl
  · rw [hraise]
    trivial
  rw [heq]
  refine Proc.Awaits.bind (awaits_reporting (Q := fun answer =>
    answer.2.mustChangePassword = true) ?_) fun answer h =>
      Proc.awaits_raiseIf_bind fun hnot => Or.inr (by_contra fun hpath => hnot ⟨h, hpath⟩)
  cases hclaims : env.decodeAccess token with
  | expired | invalid => exact trivial
  | claims claims =>
      rw [authenticateAccess_claims]
      refine Proc.awaits_call (by simp [administrative]) fun found hanswer _ => ?_
      cases found with
      | none => exact trivial
      | some user =>
          refine Proc.awaits_raiseIf_bind fun _ => Proc.awaits_call (by simp [administrative])
            fun profile _ hnot => ?_
          cases profile with
          | none => exact trivial
          | some profile =>
              show profile.mustChangePassword = true
              by_contra hmust
              exact hnot ⟨claims, profile, tokenClaims_eq htoken hclaims, rfl, answers_byId hanswer,
                by simpa using hmust⟩

/-- The actor is the one that the token speaks of, and the request has the internal key. -/
theorem authenticate_returns (hjwt : env.settings.authMode = .jwt) :
    (authenticate env request).Awaits (fun _ _ => False) (fun op => administrative op = true)
      (fun actor => actor = none ∨ actor = tokenActor env request ∧
        request.internalApiKey = env.settings.internalApiKey) := by
  rcases authenticate_cases request hjwt with hnone | ⟨e, hraise⟩ |
    ⟨token, htoken, hkey, heq⟩
  · rw [hnone]
    exact Or.inl rfl
  · rw [hraise]
    trivial
  rw [heq]
  refine Proc.Awaits.bind (awaits_reporting (Q := fun answer =>
    some answer.1 = tokenActor env request) ?_) fun answer h =>
      Proc.awaits_raiseIf_bind fun _ => Or.inr ⟨h, hkey⟩
  cases hclaims : env.decodeAccess token with
  | expired | invalid => exact trivial
  | claims claims =>
      rw [authenticateAccess_claims]
      refine Proc.awaits_call (by simp [administrative]) fun found hanswer _ => ?_
      cases found with
      | none => exact trivial
      | some user =>
          refine Proc.awaits_raiseIf_bind fun hvalid => Proc.awaits_call (by simp [administrative])
            fun profile _ _ => ?_
          simp only [not_or, not_not] at hvalid
          cases profile with
          | none => exact trivial
          | some profile =>
              show some (ActorContext.mk user.userId user.role) = tokenActor env request
              rw [tokenActor, tokenClaims_eq htoken hclaims, answers_byId hanswer, hvalid.2.2]
              rfl

end authenticate

/-! ## Behind the authentication -/

section handlers

variable {env : Env} {request : HttpRequest}

/-- The actor that a service is called for. -/
def ServiceCall.actor : ServiceCall → Option ActorContext
  | .cases actor _ _ | .reviewDiagnosis actor _ _ _ | .diagnosis actor _ _ _ => some actor
  | .users _ | .query _ _ => none

/-- The roles that may have a service called. -/
def ServiceCall.roles : ServiceCall → List ActorRole
  | .cases _ _ _ | .reviewDiagnosis _ _ _ _ => [.reviewer, .admin]
  | .diagnosis _ _ _ _ => [.operator, .reviewer, .admin]
  | .users _ | .query _ _ => readRoles

/-- What lies between an actor and a service that writes for it. -/
structure Admitted (env : Env) (request : HttpRequest) (actor : ActorContext)
    (roles : List ActorRole) : Prop where
  role : actor.actorRole ∈ roles
  pilot : env.settings.pilotMode = true → actor.actorId ∈ env.settings.allowedActors
  rate : checkRate env.settings request (some actor) = .ok ()

/-- The call of a handler fits what the handler asks of its actor. -/
structure CallFits (access : Access) (actor : ActorContext) (call : ServiceCall) : Prop where
  actor : ∀ a, call.actor = some a → a = actor ∧ access.roles = some call.roles ∧
    access.pilotWrite = true
  users : ∀ r, call = .users r → ofOwnAccount r = true ∨ access = administrator

theorem callFits_query (access : Access) (actor : ActorContext) (endpoint : Endpoint)
    (parameters : List String) : CallFits access actor (.query endpoint parameters) := by
  constructor
  · intro a ha
    cases ha
  · intro r hr
    cases hr

theorem callFits_users {access : Access} {request : Users.Request}
    (h : ofOwnAccount request = true ∨ access = administrator) (actor : ActorContext) :
    CallFits access actor (.users request) := by
  constructor
  · intro a ha
    cases ha
  · intro r hr
    cases hr
    exact h

/-- The call is made for the actor that the handler has asked. -/
theorem callFits_actor {access : Access} {actor : ActorContext} {call : ServiceCall}
    (hactor : call.actor = some actor) (hroles : access.roles = some call.roles)
    (hpilot : access.pilotWrite = true) : CallFits access actor call := by
  constructor
  · intro a ha
    rw [hactor] at ha
    cases ha
    exact ⟨rfl, hroles, hpilot⟩
  · rintro r rfl
    cases hactor

/-- **Every handler calls its service for the actor it has asked for.** -/
theorem closedCall_fits {endpoint : Endpoint} {access : Access} (haccess : endpoint.access = some access)
    {parameters : List String} {call : ActorContext → ServiceCall}
    (h : closedCall env request endpoint parameters = some call) (actor : ActorContext) :
    CallFits access actor (call actor) := by
  unfold closedCall at h
  split at h <;> (try split at h) <;> cases h <;>
    first
      | exact callFits_query _ _ _ _
      | exact callFits_users (Or.inl rfl) _
      | (cases haccess; exact callFits_users (Or.inr rfl) _)
      | (cases haccess; exact callFits_actor rfl rfl rfl)

theorem actorFromRequest_jwt (hjwt : env.settings.authMode = .jwt) (actor : Option ActorContext)
    (explicit : Bool) : actorFromRequest env.settings request actor explicit =
      actor.elim (.error .actorRequired) .ok := by
  unfold actorFromRequest
  rw [hjwt]

/-- A handler lets an actor through whose role and name it has checked. -/
theorem authorize_eq_ok (hjwt : env.settings.authMode = .jwt) {access : Access}
    {actor : Option ActorContext} {a : ActorContext}
    (h : access.authorize env.settings request actor = .ok a) :
    actor = some a ∧ (∀ roles, access.roles = some roles → a.actorRole ∈ roles) ∧
      (access.pilotWrite = true → env.settings.pilotMode = true →
        a.actorId ∈ env.settings.allowedActors) := by
  unfold Access.authorize at h
  rw [actorFromRequest_jwt hjwt] at h
  cases actor with
  | none => cases h
  | some b =>
      obtain ⟨b', hb, h⟩ := Prog.except_bind_eq_ok h
      cases hb
      obtain ⟨u, hroles, h⟩ := Prog.except_bind_eq_ok h
      obtain ⟨u', hpilot, h⟩ := Prog.except_bind_eq_ok h
      cases h
      refine ⟨rfl, fun roles hsome => ?_, fun hwrite hmode => ?_⟩
      · simp only [Access.checkRole, hsome, requireRoles] at hroles
        split at hroles
        · assumption
        · cases hroles
      · rw [Access.checkPilot, if_pos hwrite, requirePilotWrite] at hpilot
        split at hpilot
        · cases hpilot
        · next hpass =>
            by_contra hnot
            exact hpass ⟨hmode, hnot⟩

/-- What the handler of `endpoint` has checked before it calls. -/
inductive Handled (env : Env) (endpoint : Endpoint) (actor : Option ActorContext) (call : ServiceCall) :
    Prop
  | opened (hactor : call.actor = none) (hown : ∀ r, call = .users r → ofOwnAccount r = true)
  | closed (a : ActorContext) (access : Access) (haccess : endpoint.access = some access)
      (hactor : actor = some a) (hroles : ∀ roles, access.roles = some roles → a.actorRole ∈ roles)
      (hpilot : access.pilotWrite = true → env.settings.pilotMode = true →
        a.actorId ∈ env.settings.allowedActors) (hfits : CallFits access a call)

theorem openCall_own {endpoint : Endpoint} {call : ServiceCall}
    (h : openCall env request endpoint = some call) :
    call.actor = none ∧ ∀ r, call = .users r → ofOwnAccount r = true := by
  unfold openCall at h
  split at h <;> (try split at h) <;> cases h
  all_goals
    refine ⟨rfl, fun r hr => ?_⟩
    cases hr
    try rfl

theorem handler_eq_ok (hjwt : env.settings.authMode = .jwt) {actor : Option ActorContext}
    {endpoint : Endpoint} {parameters : List String} {call : ServiceCall}
    (h : handler env request actor endpoint parameters = .ok call) :
    Handled env endpoint actor call := by
  unfold handler at h
  split at h
  · split at h
    · cases h
    · cases hopen : openCall env request endpoint with
      | none =>
          rw [hopen] at h
          cases h
      | some c =>
          rw [hopen] at h
          cases h
          obtain ⟨hactor, hown⟩ := openCall_own hopen
          exact .opened hactor hown
  · next access haccess =>
      split at h
      · cases h
      · next f hclosed =>
          obtain ⟨a, hauthorized, rfl⟩ := Prog.except_map_eq_ok h
          obtain ⟨hactor, hroles, hpilot⟩ := authorize_eq_ok hjwt hauthorized
          exact .closed a access haccess hactor hroles hpilot (closedCall_fits haccess hclosed a)

/-- What is left when a request has been authenticated: a refusal, or a call. -/
theorem proceed_cases (request : HttpRequest) (hjwt : env.settings.authMode = .jwt)
    (actor : Option ActorContext) :
    (∃ e, proceed env request actor = .raise e) ∨
    ∃ endpoint parameters call, proceed env request actor = answer env call ∧
      findRoute request.method request.path = .ok (endpoint, parameters) ∧
      Handled env endpoint actor call ∧ checkRate env.settings request actor = .ok () := by
  unfold proceed
  cases hbody : checkBody env.settings request with
  | error e => exact Or.inl ⟨e, rfl⟩
  | ok u =>
      cases hrate : checkRate env.settings request actor with
      | error e => exact Or.inl ⟨e, rfl⟩
      | ok u =>
          cases hroute : findRoute request.method request.path with
          | error e => exact Or.inl ⟨e, rfl⟩
          | ok route =>
              obtain ⟨endpoint, parameters⟩ := route
              cases hhandler : handler env request actor endpoint parameters with
              | error e =>
                  refine Or.inl ⟨e, ?_⟩
                  simp only [lift, Proc.ret_bind, hhandler, Proc.raise_bind]
              | ok call =>
                  refine Or.inr ⟨endpoint, parameters, call, ?_, rfl, handler_eq_ok hjwt hhandler, rfl⟩
                  simp only [lift, Proc.ret_bind, hhandler]

/-- Whoever must change the password gets to handlers that ask for nothing but an actor. -/
theorem findRoute_passwordChange {method : String} {path : List String} {endpoint : Endpoint}
    {parameters : List String} (h : findRoute method path = .ok (endpoint, parameters))
    (hpath : path ∈ passwordChangePaths) : endpoint.access = some anyActor := by
  have hroutes : ∀ path ∈ passwordChangePaths, ∀ e ∈ endpoints,
      (matchPath e.route.2 path).isSome = true → e.access = some anyActor := by decide
  unfold findRoute at h
  split at h
  · next e hfind =>
      cases h
      have hmatch := List.find?_some hfind
      simp only [decide_eq_true_eq] at hmatch
      exact hroutes path hpath _ (List.mem_of_find?_eq_some hfind) hmatch.2
  · cases h

/-- The actor that the answer's service has been called for. -/
def Answer.actor : Answer → Option ActorContext
  | .users _ => none
  | .call service => service.actor

variable {cause : (op : Op) → Ans op → Prop} {guarded : Op → Prop}

/-- The call of a handler none of whose calls is guarded. -/
theorem awaits_answer {free : Answer → Prop} {call : ServiceCall}
    (huses : ∀ r, call = .users r →
      (serve env.codec env.auth r : Users.Call Reply).Uses fun op => ¬ guarded op)
    (husers : ∀ reply, free (.users reply)) (hcall : free (.call call)) :
    (answer env call).Awaits cause guarded free := by
  cases call with
  | users r =>
      refine Proc.Awaits.bind (Q := fun _ => True) ?_ fun reply _ => husers reply
      exact Proc.Uses.awaits (uses_reporting (huses r rfl)) (Proc.returns_true _)
  | _ => exact hcall

/-- What a user does on its own account is not guarded. -/
theorem own_unguarded {call : ServiceCall} (hown : ∀ r, call = .users r → ofOwnAccount r = true)
    (hguarded : ∀ op, guarded op → administrative op = true) (r : Users.Request)
    (hr : call = .users r) : (serve env.codec env.auth r : Users.Call Reply).Uses fun op => ¬ guarded op :=
  (modest_serve env.codec env.auth (hown r hr)).mono fun op hop hg => hop (hguarded op hg)

/-- Without the answer that the authentication waits for there is no administration and no actor. -/
theorem respond_awaits (hjwt : env.settings.authMode = .jwt)
    (h : (authenticate env request).Awaits cause (fun op => administrative op = true)
      fun actor => actor = none ∨ request.path ∈ passwordChangePaths) :
    (respond env request).Awaits cause (fun op => administrative op = true)
      fun answer => answer.actor = none := by
  refine h.bind fun actor hfree => ?_
  rcases proceed_cases request hjwt actor with
    ⟨e, hraise⟩ | ⟨endpoint, parameters, call, hcall, hroute, hhandled, -⟩
  · rw [hraise]
    trivial
  rw [hcall]
  cases hhandled with
  | opened hactor hown =>
      exact awaits_answer (own_unguarded hown fun _ hop => hop) (fun _ => rfl) hactor
  | closed a access haccess hactor hroles hpilot hfits =>
      rcases hfree with hnone | hpath
      · rw [hnone] at hactor
        cases hactor
      -- on the paths of the password change, the handler asks for no role
      rw [findRoute_passwordChange hroute hpath] at haccess
      cases haccess
      refine awaits_answer (own_unguarded (fun r hr => ?_) fun _ hop => hop) (fun _ => rfl) ?_
      · rcases hfits.users r hr with hown | hadmin
        · exact hown
        · cases hadmin
      · show call.actor = none
        cases hcalled : call.actor with
        | none => rfl
        | some b =>
            obtain ⟨-, hsome, -⟩ := hfits.actor b hcalled
            cases hsome

/-- The request has the internal key, and its token speaks of an actor of whom `P` holds. -/
def SpeaksOf (env : Env) (request : HttpRequest) (P : ActorContext → Prop) : Prop :=
  request.internalApiKey = env.settings.internalApiKey ∧
    ∃ actor, tokenActor env request = some actor ∧ P actor

/-- What a request has checked of itself, before an administrative call or a call for an actor. -/
theorem respond_checks (hjwt : env.settings.authMode = .jwt) :
    (respond env request).Awaits (fun _ _ => False)
      (fun op => administrative op = true ∧ ¬ SpeaksOf env request (·.actorRole = .admin))
      (fun answer => ∀ call actor, answer = .call call → call.actor = some actor →
        SpeaksOf env request (· = actor) ∧ Admitted env request actor call.roles) := by
  refine Proc.Awaits.bind (Q := fun actor => actor = none ∨ actor = tokenActor env request ∧
    request.internalApiKey = env.settings.internalApiKey) ?_ fun actor hactor => ?_
  · exact (authenticate_returns hjwt).weaken fun op hop => hop.1
  rcases proceed_cases request hjwt actor with
    ⟨e, hraise⟩ | ⟨endpoint, parameters, call, hcall, -, hhandled, hrate⟩
  · rw [hraise]
    trivial
  rw [hcall]
  cases hhandled with
  | opened hnone hown =>
      refine awaits_answer (own_unguarded hown fun _ hop => hop.1) (fun _ c b hc => ?_)
        fun c b hc hb => ?_
      · cases hc
      · cases hc
        rw [hnone] at hb
        cases hb
  | closed a access haccess hsome hroles hpilot hfits =>
      have hspeaks : SpeaksOf env request (· = a) := by
        rcases hactor with hnone | ⟨htoken, hkey⟩
        · rw [hnone] at hsome
          cases hsome
        · exact ⟨hkey, a, htoken.symm.trans hsome, rfl⟩
      refine awaits_answer (fun r hr => ?_) (fun _ c b hc => ?_) fun c b hc hb => ?_
      · rcases hfits.users r hr with hown | rfl
        · exact (modest_serve env.codec env.auth hown).mono fun op hop hg => hop hg.1
        · -- the actor is an administrator, so nothing is guarded
          obtain ⟨hkey, b, htoken, rfl⟩ := hspeaks
          have hadmin : b.actorRole = .admin := List.mem_singleton.mp (hroles [.admin] rfl)
          exact (Proc.uses_true _).mono fun op _ hg => hg.2 ⟨hkey, b, htoken, hadmin⟩
      · cases hc
      · cases hc
        obtain ⟨rfl, hasked, hwrite⟩ := hfits.actor b hb
        rw [hsome] at hrate
        exact ⟨hspeaks, hroles _ hasked, hpilot hwrite, hrate⟩

end handlers

/-! ## Whole runs -/

section runs

variable {env : Env} {p : Pool backend HttpRequest ApiError Answer}

/-- Request `i` has been vouched for in the history as `actor`, whose password is settled. -/
structure Authenticated (env : Env) (history : List (Event backend HttpRequest)) (i : Nat)
    (request : HttpRequest) (actor : ActorContext) : Prop where
  token : tokenActor env request = some actor
  key : request.internalApiKey = env.settings.internalApiKey
  vouched : Pool.Heard (Vouches env) i request history
  settled : Pool.Heard (Settles env) i request history

/-- **The administration of users is the administrators'.** Whatever requests arrive and however their
calls interleave: a call that creates a user, changes a role or a status, sets someone else's password
or revokes the sessions of a user for such a reason is one of a request whose user the control database
has called active before, with the role of an administrator and the version of the token. -/
theorem administration_authorized (hjwt : env.settings.authMode = .jwt) (h : (api env).Reachable p)
    {past rest : List (Event backend HttpRequest)} {e : Event backend HttpRequest}
    (hhistory : p.config.history = past ++ e :: rest) (hop : administrative e.op = true) :
    ∃ actor, Authenticated env past e.task e.request actor ∧ actor.actorRole = .admin := by
  have hvouched := (Pool.precededBy_of_reachable (fun r => respond_awaits hjwt
    ((authenticate_awaits_vouches hjwt).mono fun _ => Or.inl)) h).call past e rest hhistory hop
  have hsettled := (Pool.precededBy_of_reachable (fun r => respond_awaits hjwt
    (authenticate_awaits_settles hjwt)) h).call past e rest hhistory hop
  have hspeaks : SpeaksOf env e.request (·.actorRole = .admin) := by
    by_contra hnot
    obtain ⟨e', -, -, -, hfalse⟩ := (Pool.precededBy_of_reachable (fun r => respond_checks hjwt)
      h).call past e rest hhistory ⟨hop, hnot⟩
    exact hfalse
  obtain ⟨hkey, actor, htoken, hadmin⟩ := hspeaks
  exact ⟨actor, ⟨htoken, hkey, hvouched, hsettled⟩, hadmin⟩

/-! ## A request that administers -/

def sampleGateway : GatewaySettings where
  authMode := .jwt
  appEnv := "production"
  internalApiKey := some "key"
  requestBodyMaxBytes := 1000
  rateLimitEnabled := true
  rateLimitDiagnosisPerMinute := 10
  rateLimitReviewPerMinute := 10
  rateLimitCaseWritePerMinute := 10
  pilotMode := true
  pilotAllowedActors := "user-1, user-2"

/-- One token is good: that of the user, as an administrator. -/
def sampleEnv : Env where
  settings := sampleGateway
  codec := sampleCodec
  auth := sampleSettings
  decodeAccess token := if token = "token-1" then .claims ⟨"user-1", "ann", .admin, 1⟩ else .invalid
  decodeRefresh _ := .invalid

def sampleRequest (method : String) (path : List String) : HttpRequest where
  method := method
  path := path
  actorId := none
  actorRole := none
  internalApiKey := some "key"
  serviceActor := none
  authorization := some "Bearer token-1"
  idempotencyKey := some "key-1"
  contentLength := none
  bodyLength := 0
  body := .none
  limiter _ _ _ := .allowed
  limited := false
  now := 0

def adminUser : AppUser := { sampleUser with role := .admin }

/-- The database has the one administrator, and nothing has been asked yet. -/
def adminStart : Pool backend HttpRequest ApiError Answer := ⟨⟨⟨[adminUser], []⟩, []⟩, []⟩

theorem adminStart_init : (api sampleEnv).init adminStart := ⟨⟨by decide, rfl⟩, rfl, rfl⟩

def enableRequest : HttpRequest := sampleRequest "POST" ["api", "v1", "users", "user-1", "enable"]

/-- The administrator enables a user. -/
def enabling : Pool backend HttpRequest ApiError Answer :=
  ((api sampleEnv).run adminStart
    (.start enableRequest :: List.replicate 3 (.step 0 ⟨1, ⟨"", "", "", ""⟩⟩))).get (by decide +kernel)

theorem enabling_authorized : ∃ actor,
    Authenticated sampleEnv (enabling.config.history.take 2) 0 enableRequest actor ∧
      actor.actorRole = .admin := by
  have hreach : (api sampleEnv).Reachable enabling :=
    TransitionSystem.Reachable.of_run (.init adminStart_init) (Option.some_get _).symm
  have hhistory : enabling.config.history = enabling.config.history.take 2 ++
      ⟨0, enableRequest, .setStatus "user-1" .active, .ok (some adminUser.profile)⟩ :: [] := rfl
  exact administration_authorized rfl hreach hhistory rfl

/-! ## Calls for an actor -/

/-- **No service writes for someone who has not been let in.** When a request has had a service called
for an actor, the control database has vouched for this actor on the way, and the actor has one of the
roles that the service asks for, is one of the pilot's if there is one, and has passed the limiter. -/
theorem call_authorized (hjwt : env.settings.authMode = .jwt) (h : (api env).Reachable p) {i : Nat}
    {request : HttpRequest} {call : ServiceCall} {actor : ActorContext}
    (htask : p.tasks[i]? = some ⟨request, .ret (.call call)⟩) (hactor : call.actor = some actor) :
    Authenticated env p.config.history i request actor ∧ Admitted env request actor call.roles := by
  have hnone : ¬ (Answer.call call).actor = none := by
    rw [Answer.actor, hactor]
    simp
  have hvouched := ((Pool.precededBy_of_reachable (fun r => respond_awaits hjwt
    ((authenticate_awaits_vouches hjwt).mono fun _ => Or.inl)) h).result i request _ htask).resolve_left
    hnone
  have hsettled := ((Pool.precededBy_of_reachable (fun r => respond_awaits hjwt
    (authenticate_awaits_settles hjwt)) h).result i request _ htask).resolve_left hnone
  have hchecks : SpeaksOf env request (· = actor) ∧ Admitted env request actor call.roles := by
    rcases (Pool.precededBy_of_reachable (fun r => respond_checks hjwt) h).result i request _ htask with
      hfree | ⟨e, -, -, -, hfalse⟩
    · exact hfree call actor rfl hactor
    · exact hfalse.elim
  obtain ⟨⟨hkey, b, htoken, rfl⟩, hadmitted⟩ := hchecks
  exact ⟨⟨htoken, hkey, hvouched, hsettled⟩, hadmitted⟩

end runs

end EnergyAgent.Api
