import EnergyAgent.Api.Authorization

/-!
# What the validated settings are good for

An application that starts has settings which `Settings` has accepted. Outside `local` and `test`, or in
pilot mode, nobody without the internal key gets further than the probes: whatever requests arrive and
however their calls interleave, the control database is not asked for them and no service is called.
-/

namespace EnergyAgent.Api

open EnergyAgent.Core EnergyAgent.Lib EnergyAgent.Users

/-- The settings as the API reads them. -/
def GatewaySettings.ofSettings (s : Settings) : GatewaySettings where
  authMode := s.authMode
  appEnv := s.appEnv
  internalApiKey := s.internalApiKey
  requestBodyMaxBytes := s.requestBodyMaxBytes
  rateLimitEnabled := s.rateLimitEnabled
  rateLimitDiagnosisPerMinute := s.rateLimitDiagnosisPerMinute
  rateLimitReviewPerMinute := s.rateLimitReviewPerMinute
  rateLimitCaseWritePerMinute := s.rateLimitCaseWritePerMinute
  pilotMode := s.pilotMode
  pilotAllowedActors := s.pilotAllowedActors

/-- What is open to a request without the internal key. -/
def openTo (settings : GatewaySettings) (request : HttpRequest) : Endpoint → Bool
  | .live | .ready => true
  | .metrics => metricsAllowed settings request
  | .login | .refresh => settings.authMode = .trustedHeaders
  | _ => false

section keyless

variable {env : Env} {request : HttpRequest}

theorem matchPath_of_findRoute {method : String} {path : List String} {endpoint : Endpoint}
    {parameters : List String} (h : findRoute method path = .ok (endpoint, parameters)) :
    (matchPath endpoint.route.2 path).isSome = true := by
  unfold findRoute at h
  split at h
  · next e hfind =>
      cases h
      have hsome := List.find?_some hfind
      simp only [decide_eq_true_eq] at hsome
      exact hsome.2
  · cases h

theorem underApi_of_matchPath {part : Option String} {template : List (Option String)}
    {path : List String}
    (h : (matchPath (some "api" :: some "v1" :: part :: template) path).isSome = true) :
    underApi path = true := by
  have hhead : ∀ {name : String} {template : List (Option String)} {path : List String},
      (matchPath (some name :: template) path).isSome = true →
        ∃ rest, path = name :: rest ∧ (matchPath template rest).isSome = true := by
    intro name template path h
    cases path with
    | nil => simp [matchPath] at h
    | cons p rest =>
        rw [matchPath] at h
        split at h
        · next hp => exact ⟨rest, by rw [hp], h⟩
        · cases h
  obtain ⟨path, rfl, hfirst⟩ := hhead h
  obtain ⟨path, rfl, hsecond⟩ := hhead hfirst
  cases path with
  | nil => cases part <;> simp [matchPath] at hsecond
  | cons p path => rfl

/-- What lies outside of the API: the probes and the metrics. -/
theorem findRoute_outside {method : String} {path : List String} {endpoint : Endpoint}
    {parameters : List String} (h : findRoute method path = .ok (endpoint, parameters))
    (hpath : underApi path = false) : endpoint = .live ∨ endpoint = .ready ∨ endpoint = .metrics := by
  have hroutes : ∀ e : Endpoint, (e = .live ∨ e = .ready ∨ e = .metrics) ∨
      ∃ part template, e.route.2 = some "api" :: some "v1" :: part :: template := by
    intro e
    cases e <;> first | exact Or.inl (by decide) | exact Or.inr ⟨_, _, rfl⟩
  have hmatch := matchPath_of_findRoute h
  rcases hroutes endpoint with hprobe | ⟨part, template, hroute⟩
  · exact hprobe
  · rw [hroute] at hmatch
    rw [underApi_of_matchPath hmatch] at hpath
    cases hpath

/-- Behind a gateway, a handler that asks for an actor asks for the key first. -/
theorem authorize_keyless (hmode : env.settings.authMode ≠ .developmentHeaders)
    (hkey : request.internalApiKey ≠ env.settings.internalApiKey) (access : Access) :
    ∃ e, access.authorize env.settings request none = .error e := by
  refine ⟨if env.settings.authMode = .jwt then .actorRequired else .internalKey, ?_⟩
  unfold Access.authorize actorFromRequest
  cases hauth : env.settings.authMode with
  | developmentHeaders => exact absurd hauth hmode
  | trustedHeaders => simp [hkey, bind, Except.bind]
  | jwt => rfl

theorem handler_keyless (hmode : env.settings.authMode ≠ .developmentHeaders)
    (hkey : request.internalApiKey ≠ env.settings.internalApiKey) {endpoint : Endpoint}
    (houtside : env.settings.authMode = .jwt →
      endpoint = .live ∨ endpoint = .ready ∨ endpoint = .metrics)
    {parameters : List String} {call : ServiceCall}
    (h : handler env request none endpoint parameters = .ok call) :
    openTo env.settings request endpoint = true ∧ openCall env request endpoint = some call := by
  unfold handler at h
  split at h
  · next hopen =>
      split at h
      · cases h
      next hmetrics =>
      have hcall : openCall env request endpoint = some call := by
        cases hcalled : openCall env request endpoint with
        | none =>
            rw [hcalled] at h
            cases h
        | some c =>
            rw [hcalled] at h
            cases h
            rfl
      refine ⟨?_, hcall⟩
      have htrusted : endpoint = .login ∨ endpoint = .refresh →
          env.settings.authMode = .trustedHeaders := by
        intro hsign
        cases hauth : env.settings.authMode with
        | developmentHeaders => exact absurd hauth hmode
        | trustedHeaders => rfl
        | jwt => rcases hsign with rfl | rfl <;> simp at houtside <;> exact absurd hauth houtside
      cases endpoint <;> first
        | rfl
        | exact decide_eq_true (htrusted (Or.inl rfl))
        | exact decide_eq_true (htrusted (Or.inr rfl))
        | exact by_contra fun hnot => hmetrics ⟨rfl, Bool.eq_false_iff.mpr hnot⟩
        | cases hopen
  · next access haccess =>
      split at h
      · cases h
      · next f hclosed =>
          obtain ⟨e, herror⟩ := authorize_keyless hmode hkey access
          rw [herror] at h
          cases h

/-- **What a request without the key comes to.** -/
theorem respond_keyless (hmode : env.settings.authMode ≠ .developmentHeaders)
    (hkey : request.internalApiKey ≠ env.settings.internalApiKey) :
    (∃ e, respond env request = .raise e) ∨
    ∃ endpoint parameters call, respond env request = answer env call ∧
      findRoute request.method request.path = .ok (endpoint, parameters) ∧
      openTo env.settings request endpoint = true ∧ openCall env request endpoint = some call := by
  have hauth : (∃ e, authenticate env request = .raise e) ∨ authenticate env request = .ret none ∧
      (env.settings.authMode = .jwt → underApi request.path = false) := by
    unfold authenticate
    by_cases hpass : env.settings.authMode ≠ .jwt ∨ underApi request.path = false
    · rw [if_pos hpass]
      exact .inr ⟨rfl, fun hjwt => hpass.resolve_left (not_not_intro hjwt)⟩
    · rw [if_neg hpass, Proc.raiseIf, if_pos hkey]
      exact .inl ⟨_, rfl⟩
  unfold respond
  rcases hauth with ⟨e, hraise⟩ | ⟨hnone, houtside⟩
  · rw [hraise]
    exact .inl ⟨e, rfl⟩
  rw [hnone, Proc.ret_bind]
  unfold proceed
  cases checkBody env.settings request with
  | error e => exact .inl ⟨e, rfl⟩
  | ok u =>
      cases checkRate env.settings request none with
      | error e => exact .inl ⟨e, rfl⟩
      | ok u =>
          cases hroute : findRoute request.method request.path with
          | error e => exact .inl ⟨e, rfl⟩
          | ok route =>
              obtain ⟨endpoint, parameters⟩ := route
              cases hhandler : handler env request none endpoint parameters with
              | error e =>
                  simp only [lift, Proc.ret_bind, hhandler, Proc.raise_bind]
                  exact .inl ⟨e, rfl⟩
              | ok call =>
                  simp only [lift, Proc.ret_bind, hhandler]
                  have hopen := handler_keyless hmode hkey
                    (fun hjwt => findRoute_outside hroute (houtside hjwt)) hhandler
                  exact .inr ⟨endpoint, parameters, call, rfl, rfl, hopen⟩

/-! ## Whole runs -/

/-- The request is a login or a refresh. -/
def SignsIn (request : HttpRequest) : Prop :=
  ∃ endpoint parameters, findRoute request.method request.path = .ok (endpoint, parameters) ∧
    (endpoint = .login ∨ endpoint = .refresh)

/-- The request has been let in without the key. -/
def LetIn (settings : GatewaySettings) (request : HttpRequest) (answer : Answer) : Prop :=
  ∃ endpoint parameters, findRoute request.method request.path = .ok (endpoint, parameters) ∧
    openTo settings request endpoint = true ∧
    (answer = .call (.query endpoint []) ∨ endpoint = .login ∨ endpoint = .refresh)

theorem openTo_signIn {settings : GatewaySettings} {endpoint : Endpoint}
    (hsign : endpoint = .login ∨ endpoint = .refresh)
    (h : openTo settings request endpoint = true) : settings.authMode = .trustedHeaders := by
  rcases hsign with rfl | rfl <;> exact of_decide_eq_true h

/-- One request: without the key it makes no call but for a login or a refresh. -/
theorem respond_awaits_key (hmode : env.settings.authMode ≠ .developmentHeaders) :
    (respond env request).Awaits (fun _ _ => False)
      (fun _ => ¬ (request.internalApiKey = env.settings.internalApiKey ∨
        env.settings.authMode = .trustedHeaders ∧ SignsIn request))
      (fun answer => request.internalApiKey = env.settings.internalApiKey ∨
        LetIn env.settings request answer) := by
  by_cases hkey : request.internalApiKey = env.settings.internalApiKey
  · exact Proc.Uses.awaits ((Proc.uses_true _).mono fun op _ hnot => hnot (.inl hkey))
      ((Proc.returns_true _).mono fun answer _ => .inl hkey)
  rcases respond_keyless hmode hkey with ⟨e, hraise⟩ |
    ⟨endpoint, parameters, call, hcall, hroute, hopen, hopened⟩
  · rw [hraise]
    trivial
  rw [hcall]
  by_cases hsign : endpoint = .login ∨ endpoint = .refresh
  · have hsigns : SignsIn request := ⟨endpoint, parameters, hroute, hsign⟩
    refine Proc.Uses.awaits ((Proc.uses_true _).mono fun op _ hnot => ?_)
      ((Proc.returns_true _).mono fun answer _ => .inr ⟨endpoint, parameters, hroute, hopen, .inr hsign⟩)
    exact hnot (.inr ⟨openTo_signIn hsign hopen, hsigns⟩)
  · -- a probe calls nothing
    have hquery : call = .query endpoint [] := by
      rw [not_or] at hsign
      cases endpoint <;> first
        | exact absurd rfl hsign.1
        | exact absurd rfl hsign.2
        | exact (Option.some.inj hopened).symm
    rw [hquery]
    exact .inr ⟨endpoint, parameters, hroute, hopen, .inl rfl⟩

end keyless

def headerSettings : Settings where
  appEnv := "production"
  authMode := .trustedHeaders
  internalApiKey := some "key"
  indexSync := false

def headerEnv : Env := { sampleEnv with settings := .ofSettings headerSettings }

def keylessLogin : HttpRequest :=
  { sampleRequest "POST" ["api", "v1", "auth", "login"] with
    internalApiKey := none, body := .login "ann" "secret" }

def keylessList : HttpRequest :=
  { sampleRequest "GET" ["api", "v1", "users"] with internalApiKey := none }

/-- Somebody without the key logs in, and asks for the users meanwhile. -/
def keylessPool : Pool backend HttpRequest ApiError Answer :=
  ((api headerEnv).run adminStart
    (.start keylessLogin :: .start keylessList :: List.replicate 2 (.step 0 ⟨1, ⟨"", "", "", ""⟩⟩))).get
    (by decide +kernel)

end EnergyAgent.Api
