import EnergyAgent.Api.Authorization
import EnergyAgent.Cases.Authorship

/-!
# Who has written what, from the outside

The HTTP API with what is behind it: the case service, its reviews, and the workers. A service is
called with the actor that the handler has let in, so that in JWT mode every name in the tables of the
cases is one that the control database has vouched for.
-/

namespace EnergyAgent.Api

open EnergyAgent.Core EnergyAgent.Lib EnergyAgent.Users
open EnergyAgent.Cases (CaseCall CaseSettings ReviewThreads ReviewLabel Attributed Signed reviewing)
open EnergyAgent.Indexing (NewId)

variable {γ : Type}

/-! ## The system -/

/-- The HTTP requests, those of them whose service has been called, and the tables behind. -/
structure Site (γ : Type) where
  http : Pool backend HttpRequest ApiError Answer
  served : List Nat
  behind : ReviewThreads γ

inductive SiteLabel (γ : Type)
  /-- A request arrives, or makes its next call to the control database. -/
  | http (move : Move backend HttpRequest)
  /-- The service is called that request `i` has come to, with what `call` brings along. -/
  | serve (i : Nat) (call : CaseCall) (newReviewId : NewId)
  /-- What nobody has asked for now: a next access, a worker, the publisher, a diagnosis. -/
  | behind (label : ReviewLabel γ)

/-- The call of a handler as a step of the service. -/
def ServiceCall.label (call : CaseCall) (newReviewId : NewId) : ServiceCall → Option (ReviewLabel γ)
  | .cases actor request key =>
      if call.actor = actor ∧ call.idempotencyKey = key then some (.cases (.start (.api call request)))
      else none
  | .reviewDiagnosis actor sessionId payload key =>
      if call.actor = actor ∧ call.idempotencyKey = key then
        some (.review call newReviewId sessionId payload)
      else none
  | _ => none

/-- Some request asks for this. -/
def asked : ReviewLabel γ → Bool
  | .cases (.start (.api _ _)) => true
  | .review _ _ _ _ => true
  | _ => false

/-- The service call that request `i` has come to. -/
def Site.callOf (s : Site γ) (i : Nat) : Option ServiceCall :=
  match s.http.tasks[i]? with
  | some ⟨_, .ret (.call call)⟩ => some call
  | _ => none

namespace Site

def step (env : Env) (settings : CaseSettings) (s : Site γ) : SiteLabel γ → Option (Site γ)
  | .http move => ((api env).step s.http move).map fun http => { s with http := http }
  | .serve i call newReviewId =>
      if i ∈ s.served then none
      else do
        let service ← s.callOf i
        let label ← service.label call newReviewId
        let behind ← (reviewing settings).step s.behind label
        pure { s with served := s.served ++ [i], behind := behind }
  | .behind label =>
      if asked label then none
      else ((reviewing settings).step s.behind label).map fun behind => { s with behind := behind }

end Site

/-- The site, from a database without sessions and without cases. -/
def site (env : Env) (settings : CaseSettings) : TransitionSystem (Site γ) (SiteLabel γ) where
  init s := (api env).init s.http ∧ s.served = [] ∧ (reviewing settings).init s.behind
  step := Site.step env settings

/-! ## Accountable actors -/

/-- A request of the actor has had its service called: the control database has vouched for the actor,
who is a reviewer or an administrator, and one of the pilot's if there is one. -/
def Accountable (env : Env) (s : Site γ) (actor : ActorContext) : Prop :=
  ∃ i ∈ s.served, ∃ request, Authenticated env s.http.config.history i request actor ∧
    Admitted env request actor [.reviewer, .admin]

/-- What the site keeps. -/
structure Accounted (env : Env) (s : Site γ) : Prop where
  http : (api env).Reachable s.http
  threads : ∀ t ∈ s.behind.threads, t.Each (Signed (Accountable env s))
  desk : Attributed (Accountable env s) s.behind.desk

theorem Authenticated.append {env : Env} {i : Nat} {request : HttpRequest} {actor : ActorContext}
    {history new : List (Event backend HttpRequest)} (h : Authenticated env history i request actor) :
    Authenticated env (history ++ new) i request actor :=
  ⟨h.token, h.key, h.vouched.append, h.settled.append⟩

/-- Requests come and go, and more of them are served. -/
theorem Accountable.grows {env : Env} {s : Site γ} {actor : ActorContext}
    (h : Accountable env s actor) (s' : Site γ) (hserved : ∀ i ∈ s.served, i ∈ s'.served)
    (hhistory : s.http.config.history <+: s'.http.config.history) : Accountable env s' actor := by
  obtain ⟨i, hi, request, hauth, hadmitted⟩ := h
  obtain ⟨new, hnew⟩ := hhistory
  refine ⟨i, hserved i hi, request, ?_, hadmitted⟩
  rw [← hnew]
  exact hauth.append

theorem history_grows {env : Env} {p q : Pool backend HttpRequest ApiError Answer}
    {move : Move backend HttpRequest} (hstep : (api env).step p move = some q) :
    p.config.history <+: q.config.history := by
  rcases Pool.step_cases hstep with ⟨r, rfl, rfl⟩ | ⟨i, x, r, op, k, a, c, rfl, htask, hexec, rfl⟩
  · exact List.prefix_refl _
  · rw [(Config.exec_eq_some hexec).2]
    exact List.prefix_append _ _

theorem callOf_eq_some {s : Site γ} {i : Nat} {call : ServiceCall} (h : s.callOf i = some call) :
    ∃ request, s.http.tasks[i]? = some ⟨request, .ret (.call call)⟩ := by
  unfold Site.callOf at h
  split at h
  · next request call' htask =>
      cases h
      exact ⟨request, htask⟩
  · cases h

/-! ## The steps -/

section steps

variable {env : Env} {settings : CaseSettings} {s s' : Site γ}

/-- The desk behind makes a step, for which `P` holds of the actor if some request asks for it. -/
theorem behind_step {P : ActorContext → Prop} {b b' : ReviewThreads γ} {label : ReviewLabel γ}
    (hthreads : ∀ t ∈ b.threads, t.Each (Signed P)) (hdesk : Attributed P b.desk)
    (hcases : ∀ call request, label = .cases (.start (.api call request)) → P call.actor)
    (hreview : ∀ call id sessionId payload, label = .review call id sessionId payload → P call.actor)
    (hstep : (reviewing settings).step b label = some b') :
    (∀ t ∈ b'.threads, t.Each (Signed P)) ∧ Attributed P b'.desk := by
  cases label with
  | cases move =>
      simp only [reviewing] at hstep
      split at hstep
      · cases hstep
      · obtain ⟨q, hq, rfl⟩ := Option.map_eq_some_iff.mp hstep
        obtain ⟨hnext, hstore⟩ := Threads.each_step (p := b.cases) hthreads (fun label hlabel =>
          (Cases.signs_activity settings fun call request happ =>
            hcases call request (by rw [hlabel, happ])).mono fun _ _ hlogged => hlogged.toSigned) hq
        refine ⟨hnext, ?_⟩
        rcases hstore with hsame | hsigned
        · show Attributed P { b.desk with world := q.store }
          rw [hsame]
          exact hdesk
        · exact hdesk.signed hsigned
  | review call id sessionId payload =>
      cases hstep
      exact ⟨hthreads, (Cases.keeps_attributed_reviewDiagnosis (hreview call id sessionId payload rfl) id
        sessionId payload).snd hdesk⟩
  | diagnosis sessions results =>
      cases hstep
      exact ⟨hthreads, hdesk.events, hdesk.createdBy, hdesk.reviewer, hdesk.reviews⟩

/-- Whoever a service is called for has been let in by its handler. -/
theorem admitted_of_call (hjwt : env.settings.authMode = .jwt) (hhttp : (api env).Reachable s.http)
    {i : Nat} {service : ServiceCall} (hcall : s.callOf i = some service) {actor : ActorContext}
    (hactor : service.actor = some actor) : ∃ request,
      Authenticated env s.http.config.history i request actor ∧
        Admitted env request actor service.roles := by
  obtain ⟨request, htask⟩ := callOf_eq_some hcall
  exact ⟨request, call_authorized hjwt hhttp htask hactor⟩

/-- A step is called with the actor of its handler. -/
theorem label_actor {service : ServiceCall} {call : CaseCall} {newReviewId : NewId}
    {label : ReviewLabel γ} (h : service.label call newReviewId = some label) :
    service.actor = some call.actor ∧ service.roles = [.reviewer, .admin] ∧
      ((∃ request, label = .cases (.start (.api call request))) ∨
        ∃ sessionId payload, label = .review call newReviewId sessionId payload) := by
  unfold ServiceCall.label at h
  split at h
  · split at h
    · next hsame =>
        cases h
        exact ⟨congrArg some hsame.1.symm, rfl, Or.inl ⟨_, rfl⟩⟩
    · cases h
  · split at h
    · next hsame =>
        cases h
        exact ⟨congrArg some hsame.1.symm, rfl, Or.inr ⟨_, _, rfl⟩⟩
    · cases h
  · cases h

/-- **The step lemma.** -/
theorem Accounted.step (hjwt : env.settings.authMode = .jwt) (h : Accounted env s) {label : SiteLabel γ}
    (hstep : (site env settings).step s label = some s') : Accounted env s' := by
  cases label with
  | http move =>
      obtain ⟨http, hhttp, rfl⟩ := Option.map_eq_some_iff.mp hstep
      have hgrows : ∀ actor, Accountable env s actor → Accountable env { s with http := http } actor :=
        fun actor hactor => hactor.grows { s with http := http } (fun _ hi => hi)
          (history_grows hhttp)
      exact ⟨h.http.step trivial hhttp, fun t ht => (h.threads t ht).mono fun _ _ => Signed.mono hgrows,
        h.desk.mono hgrows⟩
  | serve i call newReviewId =>
      simp only [site, Site.step] at hstep
      split at hstep
      · cases hstep
      · obtain ⟨service, hcall, hstep⟩ := Option.bind_eq_some_iff.mp hstep
        obtain ⟨label, hlabel, hstep⟩ := Option.bind_eq_some_iff.mp hstep
        obtain ⟨behind, hbehind, hstep⟩ := Option.bind_eq_some_iff.mp hstep
        cases hstep
        obtain ⟨hactor, hroles, hkind⟩ := label_actor hlabel
        have hgrows : ∀ actor, Accountable env s actor → Accountable env
            { s with served := s.served ++ [i], behind := behind } actor :=
          fun actor hactor => hactor.grows { s with served := s.served ++ [i], behind := behind }
            (fun _ hi => List.mem_append_left _ hi) (List.prefix_refl _)
        have hnow : Accountable env { s with served := s.served ++ [i], behind := behind }
            call.actor := by
          obtain ⟨request, hauth, hadmitted⟩ := admitted_of_call hjwt h.http hcall hactor
          rw [hroles] at hadmitted
          exact ⟨i, List.mem_append_right _ (List.mem_singleton_self i), request, hauth, hadmitted⟩
        obtain ⟨hthreads, hdesk⟩ := behind_step
          (fun t ht => (h.threads t ht).mono fun _ _ => Signed.mono hgrows) (h.desk.mono hgrows)
          (fun call' request heq => by
            rcases hkind with ⟨request', rfl⟩ | ⟨_, _, rfl⟩
            · cases heq
              exact hnow
            · cases heq)
          (fun call' id sessionId payload heq => by
            rcases hkind with ⟨request', rfl⟩ | ⟨_, _, rfl⟩
            · cases heq
            · cases heq
              exact hnow) hbehind
        exact ⟨h.http, hthreads, hdesk⟩
  | behind label =>
      simp only [site, Site.step] at hstep
      split at hstep
      · cases hstep
      · next hasked =>
          obtain ⟨behind, hbehind, rfl⟩ := Option.map_eq_some_iff.mp hstep
          obtain ⟨hthreads, hdesk⟩ := behind_step h.threads h.desk
            (fun call request heq => absurd (by rw [heq]; rfl) hasked)
            (fun call id sessionId payload heq => absurd (by rw [heq]; rfl) hasked) hbehind
          exact ⟨h.http, hthreads, hdesk⟩

/-- **Every name in the case tables is accounted for.** In JWT mode, whatever happens at the same time:
the actor of each event and of each review, and the author and the reviewer of each case, is one whom
the control database has called active, with the role of a reviewer or an administrator, on the way of
a request that was let through. -/
theorem names_accounted (hjwt : env.settings.authMode = .jwt) (h : (site env settings).Reachable s) :
    Attributed (Accountable env s) s.behind.desk := by
  have haccounted : Accounted env s := by
    refine h.invariant (fun s hinit => ?_) fun _ _ _ hs _ hstep => hs.step hjwt hstep
    obtain ⟨hhttp, -, ⟨⟨hcases, hevents, -⟩, hthreads⟩, hreviews⟩ := hinit
    refine ⟨.init hhttp, fun t ht => ?_, fun e he => ?_, fun row hrow => ?_,
      fun row hrow => ?_, fun review hreview => ?_⟩
    · rw [show s.behind.threads = [] from hthreads] at ht
      cases ht
    · exact absurd (hevents ▸ he) List.not_mem_nil
    · exact absurd (hcases ▸ hrow) List.not_mem_nil
    · exact absurd (hcases ▸ hrow) List.not_mem_nil
    · exact absurd (hreviews ▸ hreview) List.not_mem_nil
  exact haccounted.desk

end steps

/-! ## A run -/

/-- The administrator reviews a diagnosis over the network. -/
def reviewHttp : HttpRequest :=
  { sampleRequest "POST" ["api", "v1", "diagnosis", "sessions", "session", "review"] with
    body := .reviewDiagnosis Cases.confirmation }

/-- Then the draft is submitted. -/
def submitHttp : HttpRequest := sampleRequest "POST" ["api", "v1", "cases", "case-1", "submit"]

/-- A call of the administrator's, with the key of the requests, which creates case `id`. -/
def adminCall (id : NewId) : CaseCall :=
  { Cases.sampleCall "user-1" .admin id true with idempotencyKey := some "key-1" }

def siteStart : Site Unit := ⟨adminStart, [], Cases.completedStart⟩

/-- Request `i` authenticates itself, and its service is called. -/
def arrival (i : Nat) (request : HttpRequest) (id : NewId) : List (SiteLabel Unit) :=
  [.http (.start request), .http (.step i ⟨1, ⟨"", "", "", ""⟩⟩), .http (.step i ⟨1, ⟨"", "", "", ""⟩⟩),
    .serve i (adminCall id) Cases.jobOne]

def siteEnd : Site Unit :=
  ((site sampleEnv (Cases.sampleSettings .rabbitmq)).run siteStart
    (arrival 0 reviewHttp Cases.caseOne ++ arrival 1 submitHttp Cases.noId ++
      List.replicate 2 (.behind (.cases (.step 0))))).get (by decide +kernel)

theorem names_accounted_run : siteEnd.behind.desk.world.caseEvents.length = 1 ∧
    siteEnd.behind.desk.reviews.length = 1 ∧
    Attributed (Accountable sampleEnv siteEnd) siteEnd.behind.desk := by
  have hinit : (site sampleEnv (Cases.sampleSettings .rabbitmq)).init siteStart :=
    ⟨adminStart_init, rfl, ⟨⟨rfl, rfl, rfl, rfl, rfl, rfl⟩, rfl⟩, rfl⟩
  have hreach : (site sampleEnv (Cases.sampleSettings .rabbitmq)).Reachable siteEnd :=
    TransitionSystem.Reachable.of_run (.init hinit) (Option.some_get _).symm
  exact ⟨by decide +kernel, by decide +kernel, names_accounted rfl hreach⟩

end EnergyAgent.Api
