import EnergyAgent.Agent.CallRules
import EnergyAgent.Agent.Workflow

/-!
# Creating a session under an idempotency key

`create_session` looks its key up among all runs, and records it only with the run of a session it
creates. A call *settles* when it stores that run or is merged into the session of an earlier
alarm. `UnderKey` is the condition under which two calls with the same key and payload are one: the
key belongs to creations alone, and no call goes on to settle when another one with its key and
payload has settled before. The property speaks about the history of calls, which says who created
what.
-/

namespace EnergyAgent.Agent

open EnergyAgent.Lib

section idempotency

variable {settings : DedupSettings} {rt : Runtime}

/-- The key and the payload of a creation under a key. -/
def keyOf : Request → Option (String × CreateSessionRequest)
  | .createSession payload key _ => key.map (·, payload)
  | _ => none

/-- The call stored a run, or was merged. -/
def settles : Event (backend settings rt) Request → Bool
  | ⟨_, _, .createRun _, some _⟩ => true
  | ⟨_, _, .hit _, (some _, _)⟩ => true
  | _ => false

/-- The session and the run that a settling call stored. -/
def storedIds : Event (backend settings rt) Request → Option (String × String)
  | ⟨_, _, .createRun values, some id⟩ => some ((values id).sessionId, id)
  | _ => none

/-- The call created a session row. -/
def creates : Event (backend settings rt) Request → Bool
  | ⟨_, _, .createSession _, _⟩ => true
  | _ => false

/-- The call counted the alarm. -/
def counts : Event (backend settings rt) Request → Bool
  | ⟨_, _, .hit _, (some _, _)⟩ => true
  | ⟨_, _, .register _ _ _, some _⟩ => true
  | _ => false

/-- Request `i` is a creation under the key and with the payload, and has returned a response. -/
def successful (p : AgentPool settings rt) (kp : String × CreateSessionRequest) (i : Nat) : Bool :=
  match p.tasks[i]? with
  | some ⟨r, .ret _⟩ => keyOf r = some kp
  | _ => false

/-- How many calls of one kind all these requests have made together. -/
def callsUnder (p : AgentPool settings rt) (kp : String × CreateSessionRequest)
    (which : Event (backend settings rt) Request → Bool) : Nat :=
  p.config.history.countP fun e => successful p kp e.task && which e

/-- **Creation is idempotent per key.** -/
structure CreateIdempotent (p : AgentPool settings rt) : Prop where
  /-- Successful calls with the same key and payload return the same session and run. -/
  same : ∀ (i j : Nat) (r r' : Request) (a b : CreateSessionResponse) (kp : String × _),
    p.tasks[i]? = some ⟨r, .ret (.created a)⟩ → p.tasks[j]? = some ⟨r', .ret (.created b)⟩ →
    keyOf r = some kp → keyOf r' = some kp → a.sessionId = b.sessionId ∧ a.runId = b.runId
  /-- All of them together create at most one session and count the alarm at most once. -/
  once : ∀ kp, callsUnder p kp creates ≤ 1 ∧ callsUnder p kp counts ≤ 1
  /-- A call is refused only when an earlier creation used its key with another payload. -/
  conflict : ∀ (i : Nat) (r : Request) (k : String) (payload : CreateSessionRequest),
    p.tasks[i]? = some ⟨r, .raise .idempotencyConflict⟩ → keyOf r = some (k, payload) →
    ∃ e ∈ p.config.history, ∃ payload', keyOf e.request = some (k, payload') ∧ payload' ≠ payload

/-! ## The condition -/

/-- When a creation may make its next call: it settles only if no call with its key and payload
has, and its key is that of creations only. -/
def MayCreate (r : Request) (op : Op rt) (c : Config (backend settings rt) Request) : Prop :=
  ∀ kp, keyOf r = some kp →
    match op with
    | .hit _ => ∀ e ∈ c.history, settles e → keyOf e.request ≠ some kp
    | .createRun _ => ∀ e ∈ c.history, settles e → keyOf e.request ≠ some kp
    | .findIdempotentGlobal k =>
        ∀ row ∈ c.store.runs, row.idempotencyKey = some k → row.runType = .sessionInit
    | _ => True

/-- The guard of the runs. -/
def UnderKey (p : AgentPool settings rt) : AgentMove settings rt → Prop
  | .start _ => True
  | .step i _ => ∀ r op k, p.tasks[i]? = some ⟨r, .call op k⟩ → MayCreate r op p.config

/-! ## The invariant -/

/-- The run was stored by the settling call `e`. -/
structure StoredBy (row : RunRow) (key : String) (e : Event (backend settings rt) Request) :
    Prop where
  settles : settles e = true
  ids : storedIds e = some (row.sessionId, row.id)
  payload : ∃ payload, row.requestHash = .createSession payload ∧
    keyOf e.request = some (key, payload)

theorem StoredBy.of_same {row row' : RunRow} {key : String}
    {e : Event (backend settings rt) Request} (h : StoredBy row key e) (hsame : row.Same row') :
    StoredBy row' key e := by
  refine ⟨h.settles, ?_, ?_⟩
  · rw [hsame.sessionId, hsame.id]
    exact h.ids
  · rw [hsame.requestHash]
    exact h.payload

/-- What the calls keep: a key and a payload settle once, and the first run of a session goes back
to the call that stored it. -/
structure KeyInvariant (c : Config (backend settings rt) Request) : Prop where
  once : ∀ e ∈ c.history, ∀ e' ∈ c.history, settles e → settles e' → ∀ kp,
    keyOf e.request = some kp → keyOf e'.request = some kp → e = e'
  runs : ∀ row ∈ c.store.runs, row.runType = .sessionInit → ∀ k, row.idempotencyKey = some k →
    ∃ e ∈ c.history, StoredBy row k e

section step

variable {c d e : Config (backend settings rt) Request} {i : Nat} {r : Request} {op : Op rt}
  {x : CallInput rt} {a : Ans rt op}

/-- The guard at a call that settles. -/
theorem MayCreate.unsettled (hmay : MayCreate r op d)
    (h : settles (⟨i, r, op, a⟩ : Event (backend settings rt) Request)) {kp : String × CreateSessionRequest}
    (hkey : keyOf r = some kp) : ∀ e ∈ d.history, settles e → keyOf e.request ≠ some kp := by
  cases op with
  | hit | createRun => exact hmay kp hkey
  | _ => cases h

theorem KeyInvariant.once_step (hk : KeyInvariant d) (hmay : MayCreate r op d)
    (hhist : e.history = d.history ++ [⟨i, r, op, a⟩]) :
    ∀ e₁ ∈ e.history, ∀ e₂ ∈ e.history, settles e₁ → settles e₂ → ∀ kp,
      keyOf e₁.request = some kp → keyOf e₂.request = some kp → e₁ = e₂ := by
  intro e₁ h₁ e₂ h₂ hs₁ hs₂ kp hk₁ hk₂
  rw [hhist, List.mem_append, List.mem_singleton] at h₁ h₂
  rcases h₁ with h₁ | rfl <;> rcases h₂ with h₂ | rfl
  · exact hk.once e₁ h₁ e₂ h₂ hs₁ hs₂ kp hk₁ hk₂
  · exact absurd hk₁ (hmay.unsettled hs₂ hk₂ e₁ h₁ hs₁)
  · exact absurd hk₂ (hmay.unsettled hs₁ hk₁ e₂ h₂ hs₂)
  · rfl

theorem KeyInvariant.runs_step (hk : KeyInvariant d) (hcalls : r.Calls settings op)
    (hexec : exec settings op x d.store = some (a, e.store))
    (hhist : e.history = d.history ++ [⟨i, r, op, a⟩]) :
    ∀ row ∈ e.store.runs, row.runType = .sessionInit → ∀ k, row.idempotencyKey = some k →
      ∃ ev ∈ e.history, StoredBy row k ev := by
  intro row hrow htype k hkey
  have hkept : ∀ old ∈ d.store.runs, old.Same row → ∃ ev ∈ e.history, StoredBy row k ev := by
    intro old hold hsame
    obtain ⟨ev, hev, hstored⟩ := hk.runs old hold (hsame.runType ▸ htype) k
      (hsame.idempotencyKey ▸ hkey)
    exact ⟨ev, hhist ▸ List.mem_append_left _ hev, hstored.of_same hsame⟩
  have hmade : ⟨i, r, op, a⟩ ∈ e.history := by
    rw [hhist]
    exact List.mem_append_right _ (List.mem_singleton_self _)
  by_cases hop : ∃ values, op = .createRun values
  · obtain ⟨values, rfl⟩ := hop
    rcases exec_createRun hexec with ⟨-, hruns⟩ | ⟨ha, hruns⟩
    · exact hkept row (hruns ▸ hrow) (.refl row)
    rcases List.mem_append.mp (hruns ▸ hrow) with hold | hnew
    · exact hkept row hold (.refl row)
    rw [List.mem_singleton] at hnew
    subst hnew ha
    rcases hcalls with ⟨payload, key, traceId, sessionId, runId, rfl, rfl⟩ |
      ⟨payload, key, traceId, interrupt, rfl, hvalues⟩
    · have hkey : key = some k := hkey
      refine ⟨_, hmade, rfl, rfl, payload, rfl, ?_⟩
      rw [hkey]
      rfl
    · exact absurd htype (hvalues _).2.2.2
  · obtain ⟨old, hold, hsame⟩ := exec_runs hexec (fun values heq => hop ⟨values, heq⟩) row hrow
    exact hkept old hold hsame

theorem KeyInvariant.exec (hk : KeyInvariant d) (hcalls : r.Calls settings op)
    (hmay : MayCreate r op d) (h : d.exec i r op x = some (a, e)) : KeyInvariant e := by
  obtain ⟨hexec, hhist⟩ := Config.exec_eq_some h
  exact ⟨hk.once_step hmay hhist, hk.runs_step hcalls hexec hhist⟩

end step

/-- Between the calls of one request the others make theirs. -/
def keyDiscipline (settings : DedupSettings) (rt : Runtime) :
    Discipline (backend settings rt) Request where
  keeps := KeyInvariant
  guar _ _ _ := True
  rely i _ c d := c.Others i d
  may := MayCreate
  refl _ _ _ := .refl
  trans _ _ _ _ _ h h' := h.trans h'

/-! ## The requests keep it -/

/-- A response to a creation under a key: it is that of the call that settled the key. -/
structure CreatedUnder (i : Nat) (kp : String × CreateSessionRequest) (a : CreateSessionResponse)
    (c : Config (backend settings rt) Request) (e : Event (backend settings rt) Request) :
    Prop where
  made : e ∈ c.history
  settles : settles e = true
  key : keyOf e.request = some kp
  ids : ∀ ids ∈ storedIds e, ids = (a.sessionId, a.runId)
  /-- A request that was merged, or has created or counted anything, is the one that settled. -/
  self : storedIds e = none ∨ (∃ e' ∈ own i c.history, creates e' ∨ counts e') → e.task = i
  creates : (own i c.history).countP creates ≤ 1
  counts : (own i c.history).countP counts ≤ 1

/-- Another creation used the key with another payload. -/
def UsedOtherwise (kp : String × CreateSessionRequest)
    (c : Config (backend settings rt) Request) : Prop :=
  ∃ e ∈ c.history, ∃ payload, keyOf e.request = some (kp.1, payload) ∧ payload ≠ kp.2

/-- How `create_session` ends. -/
def CreatePost (i : Nat) (kp : String × CreateSessionRequest) :
    Except ExecutionError CreateSessionResponse → Config (backend settings rt) Request → Prop
  | .ok a, c => ∃ e, CreatedUnder i kp a c e
  | .error e, c => e = .idempotencyConflict → UsedOtherwise kp c

/-- How any request ends. -/
def KeyPost (i : Nat) (r : Request) (result : Except ExecutionError Reply)
    (c : Config (backend settings rt) Request) : Prop :=
  ∀ kp, keyOf r = some kp →
    match result with
    | .ok reply => ∃ a, reply = .created a ∧ ∃ e, CreatedUnder i kp a c e
    | .error e => e = .idempotencyConflict → UsedOtherwise kp c

section safe

variable {c d : Config (backend settings rt) Request} {i : Nat} {r : Request} {α : Type}
  {l : List (Event (backend settings rt) Request)}

theorem CreatedUnder.stable {kp : String × CreateSessionRequest} {a : CreateSessionResponse}
    {e : Event (backend settings rt) Request} (h : CreatedUnder i kp a c e)
    (hrely : c.Others i d) : CreatedUnder i kp a d e := by
  have hown := hrely.own_eq
  exact { h with
    made := hrely.mem h.made
    self := hown ▸ h.self
    creates := hown ▸ h.creates
    counts := hown ▸ h.counts }

/-- What is known after a call of request `i`, which had made the calls `l` before. -/
structure Called (i : Nat) (r : Request) (op : Op rt) (a : Ans rt op)
    (l : List (Event (backend settings rt) Request))
    (c d : Config (backend settings rt) Request) : Prop where
  keeps : KeyInvariant d
  own : own i d.history = l ++ [⟨i, r, op, a⟩]
  before : ∀ e ∈ c.history, e ∈ d.history

theorem Called.made {op : Op rt} {a : Ans rt op} (h : Called i r op a l c d) :
    ⟨i, r, op, a⟩ ∈ d.history := by
  have hmem : ⟨i, r, op, a⟩ ∈ Lib.own i d.history := by
    rw [h.own]
    exact List.mem_append_right _ (List.mem_singleton_self _)
  exact List.mem_of_mem_filter hmem

/-- One call of a request: the state it is made in, and what is known after it. -/
theorem safe_call {op : Op rt} {f : Ans rt op → Call settings rt α}
    {post : Except ExecutionError α → Config (backend settings rt) Request → Prop}
    (hown : own i c.history = l) (hcalls : r.Calls settings op)
    (h : ∀ d x a e, KeyInvariant d → MayCreate r op d →
      exec settings op x d.store = some (a, e.store) → (∀ ev ∈ d.history, ev ∈ e.history) →
      Called i r op a l c e → (f a).Safe (keyDiscipline settings rt) i r post e) :
    (ask op >>= f).Safe (keyDiscipline settings rt) i r post c := by
  intro d x a e hrely hk hmay hexec
  have hkeeps := hk.exec hcalls hmay hexec
  refine ⟨hkeeps, trivial, h d x a e hk hmay (Config.exec_eq_some hexec).1
    (fun _ => Config.exec_mem hexec) ⟨hkeeps, ?_, ?_⟩⟩
  · rw [Config.exec_own hexec, hrely.own_eq, hown]
  · exact fun ev hev => Config.exec_mem hexec (hrely.mem hev)

/-- The calls by which nothing is created or counted. -/
def Clean (l : List (Event (backend settings rt) Request)) : Prop :=
  l.countP creates = 0 ∧ l.countP counts = 0

section create

variable {payload : CreateSessionRequest} {k traceId : String}

theorem safe_registerSession {kp : String × CreateSessionRequest} {a : CreateSessionResponse}
    {e : Event (backend settings rt) Request} (sessionId : String) (hown : own i c.history = l)
    (hcounts : l.countP counts = 0) (h : CreatedUnder i kp a c e) (htask : e.task = i) :
    (registerSession settings payload sessionId >>= fun _ => Proc.ret a).Safe
      (keyDiscipline settings rt) i (.createSession payload (some k) traceId)
      (CreatePost i kp) c := by
  unfold registerSession
  cases hkey : dedupKeyOf settings payload with
  | none => exact fun d hrely _ => ⟨e, h.stable hrely⟩
  | some dedupKey =>
      have hcreates : l.countP creates ≤ 1 := hown ▸ h.creates
      refine safe_call hown trivial fun _ _ found c₁ _ _ _ _ h₁ => ?_
      refine safe_call h₁.own ⟨payload, some k, traceId, rfl, hkey⟩
        fun _ _ time c₂ _ _ _ _ h₂ => ?_
      have hrefused : ∀ d : Config (backend settings rt) Request,
          CreatePost i kp (.error .integrityError) d := fun _ heq => by cases heq
      cases time with
      | none => exact fun d _ _ => hrefused d
      | some now =>
      have hafter : CreatedUnder i kp a c₂ e :=
        { h with
          made := h₂.before e (h₁.before e h.made)
          self := fun _ => htask
          creates := by
            rw [h₂.own]
            simpa [List.countP_append, creates] using hcreates
          counts := by
            rw [h₂.own]
            simp [List.countP_append, counts, hcounts] }
      exact fun d hrely _ => ⟨e, hafter.stable hrely⟩

theorem safe_createFresh (hown : own i c.history = l) (hclean : Clean l) :
    (createFresh settings payload (some k) traceId).Safe (keyDiscipline settings rt) i
      (.createSession payload (some k) traceId) (CreatePost i (k, payload)) c := by
  refine safe_call hown ⟨payload, some k, traceId, rfl, rfl⟩ fun _ _ ids c₁ _ _ _ _ h₁ => ?_
  refine safe_call h₁.own (Or.inl ⟨payload, some k, traceId, ids.1, ids.2, rfl, rfl⟩)
    fun _ _ run c₂ _ _ hexec _ h₂ => ?_
  have hrefused : ∀ d : Config (backend settings rt) Request,
      CreatePost i (k, payload) (.error .dependencyUnavailable) d := fun _ heq => by cases heq
  cases run with
  | none => exact fun d _ _ => hrefused d
  | some id =>
  have hid : id = ids.2 := by
    rcases exec_createRun hexec with ⟨hnone, -⟩ | ⟨hsome, -⟩
    · cases hnone
    · exact Option.some.inj hsome
  subst hid
  refine safe_call h₂.own (Or.inl ⟨payload, some k, traceId, ids.1, ids.2, rfl, rfl⟩)
    fun _ _ _ c₃ _ _ _ _ h₃ => ?_
  have hcreated : CreatedUnder i (k, payload)
      { sessionId := ids.1, runId := ids.2, phase := .init, traceId := traceId } c₃
      ⟨i, .createSession payload (some k) traceId, .createRun _, some ids.2⟩ :=
    { made := h₃.before _ h₂.made
      settles := rfl
      key := rfl
      ids := fun _ hids => (Option.some.inj hids).symm
      self := fun _ => rfl
      creates := by
        rw [h₃.own]
        simp [List.countP_append, List.countP_cons, creates, hclean.1]
      counts := by
        rw [h₃.own]
        simp [List.countP_append, counts, hclean.2] }
  refine safe_registerSession ids.1 h₃.own ?_ hcreated rfl
  simp [List.countP_append, counts, hclean.2]

theorem safe_createUnlessMerged (hown : own i c.history = l) (hclean : Clean l) :
    (createUnlessMerged settings payload (some k) traceId).Safe (keyDiscipline settings rt) i
      (.createSession payload (some k) traceId) (CreatePost i (k, payload)) c := by
  unfold createUnlessMerged
  cases hkey : dedupKeyOf settings payload with
  | none => exact safe_createFresh hown hclean
  | some dedupKey =>
      refine safe_call hown ⟨payload, some k, traceId, rfl, hkey⟩ fun _ _ found c₁ _ _ _ _ h₁ => ?_
      obtain ⟨found, time⟩ := found
      cases found with
      | none =>
          refine safe_createFresh h₁.own ⟨?_, ?_⟩
          · simp [List.countP_append, creates, hclean.1]
          · simp [List.countP_append, counts, hclean.2]
      | some hit =>
          refine safe_call h₁.own trivial fun _ _ existing c₂ _ _ _ _ h₂ => ?_
          have hrefused : ∀ d : Config (backend settings rt) Request,
              CreatePost i (k, payload) (.error .assertionError) d := fun _ heq => by cases heq
          cases existing with
          | none => exact fun d _ _ => hrefused d
          | some session =>
              have hcreated (a : CreateSessionResponse) : CreatedUnder i (k, payload) a c₂
                  ⟨i, .createSession payload (some k) traceId, .hit dedupKey, (some hit, time)⟩ :=
                { made := h₂.before _ h₁.made
                  settles := rfl
                  key := rfl
                  ids := fun _ hids => by cases hids
                  self := fun _ => rfl
                  creates := by
                    rw [h₂.own]
                    simp [List.countP_append, creates, hclean.1]
                  counts := by
                    rw [h₂.own]
                    simp [List.countP_append, List.countP_cons, counts, hclean.2] }
              exact fun d hrely _ => ⟨_, (hcreated _).stable hrely⟩

/-- **A creation under a key** that has not made a call yet. -/
theorem safe_createSession (hunborn : ∀ e ∈ c.history, e.task ≠ i) :
    (createSession settings payload (some k) traceId).Safe (keyDiscipline settings rt) i
      (.createSession payload (some k) traceId) (CreatePost i (k, payload)) c := by
  have hown : own i c.history = [] := by simpa [own] using hunborn
  unfold createSession
  cases hkey : Text.truthy (some k) with
  | none => exact safe_createUnlessMerged hown ⟨rfl, rfl⟩
  | some k' =>
      obtain rfl : k' = k := by
        simp only [Text.truthy] at hkey
        split at hkey
        · cases hkey
        · exact (Option.some.inj hkey).symm
      refine safe_call hown trivial fun d x existing c₁ hk hmay hexec hsub h₁ => ?_
      cases existing with
      | none => exact safe_createUnlessMerged h₁.own ⟨rfl, rfl⟩
      | some existing =>
          obtain ⟨hmem, hrowKey⟩ := exec_findIdempotentGlobal hexec
          have htype := hmay (k', payload) rfl existing hmem hrowKey
          obtain ⟨e, he, hstored⟩ := hk.runs existing hmem htype k' hrowKey
          obtain ⟨payload', hhash, hused⟩ := hstored.payload
          refine Proc.Safe.raiseIf (fun hdiff => ?_) fun hsame => ?_
          · have hne : payload' ≠ payload := fun heq => hdiff (heq ▸ hhash)
            intro d' hrely _ _
            exact ⟨e, hrely.mem (hsub e he), payload', hused, hne⟩
          · obtain rfl : payload' = payload :=
              Fingerprint.createSession.inj (hhash.symm.trans (not_not.mp hsame))
            refine safe_call h₁.own trivial fun _ _ session c₂ _ _ _ _ h₂ => ?_
            have hrefused : ∀ d : Config (backend settings rt) Request,
                CreatePost i (k', payload') (.error .assertionError) d := fun _ heq => by cases heq
            cases session with
            | none => exact fun d _ _ => hrefused d
            | some session =>
                have hcreated : CreatedUnder i (k', payload')
                    { sessionId := existing.sessionId, runId := existing.id,
                      phase := session.phase, traceId := existing.traceId } c₂ e :=
                  { made := h₂.before e (hsub e he)
                    settles := hstored.settles
                    key := hused
                    ids := fun _ hids => Option.some.inj (hids.symm.trans hstored.ids)
                    self := by
                      rw [hstored.ids, h₂.own]
                      simp [creates, counts]
                    creates := by
                      rw [h₂.own]
                      simp [creates]
                    counts := by
                      rw [h₂.own]
                      simp [counts] }
                exact fun d' hrely _ => ⟨e, hcreated.stable hrely⟩

end create

/-- Every request, before its first call. -/
theorem safe_serve (hkeeps : KeyInvariant c) (hunborn : ∀ e ∈ c.history, e.task ≠ i) :
    (serve settings r).Safe (keyDiscipline settings rt) i r (KeyPost i r) c := by
  cases hkey : keyOf r with
  | none =>
      refine Proc.Safe.of_uses (uses_serve r) ?_ (fun _ _ _ kp h => by simp [hkey] at h)
      exact fun op d x a e hcalls hk hmay hexec =>
        ⟨hk.exec hcalls hmay hexec, trivial⟩
  | some kp =>
      cases r with
      | createSession payload key traceId =>
          obtain ⟨k, rfl, rfl⟩ := Option.map_eq_some_iff.mp hkey
          refine Proc.Safe.bind (safe_createSession hunborn) hkeeps ?_ ?_
          · rintro a d - ⟨e, hcreated⟩ d' hrely - kp' hkp
            cases hkp
            exact ⟨a, rfl, e, hcreated.stable hrely⟩
          · intro e d _ hpost kp' hkp
            cases hkp
            exact hpost
      | _ => cases hkey

end safe

/-! ## The pool -/

/-- **Every request ends as it should** in the runs under the condition. -/
theorem allSafe_underKey {p : AgentPool settings rt}
    (h : (system settings rt).ReachableVia UnderKey p) :
    Pool.AllSafe (keyDiscipline settings rt) KeyPost p := by
  refine Pool.safe_of_reachable ?_ (fun i r c hk hun => safe_serve hk hun) ?_ ?_ h
  · rintro s ⟨-, hruns, -⟩
    have hinvariant : KeyInvariant (⟨s, []⟩ : Config (backend settings rt) Request) :=
      ⟨by simp, by simp [hruns]⟩
    exact hinvariant
  · exact fun p i x r op k _ hok htask => hok r op k htask
  · exact fun p i x r op k a c _ _ _ hexec _ _ j t hj _ => Config.exec_others hexec hj

theorem successful_eq_true {p : AgentPool settings rt} {kp : String × CreateSessionRequest} {i : Nat}
    (h : successful p kp i = true) :
    ∃ r reply, p.tasks[i]? = some ⟨r, .ret reply⟩ ∧ keyOf r = some kp := by
  unfold successful at h
  split at h
  · next r reply htask => exact ⟨r, reply, htask, by simpa using h⟩
  · cases h

/-- A successful request has a settling call to show. -/
theorem createdUnder_of_successful {p : AgentPool settings rt}
    (hsafe : Pool.AllSafe (keyDiscipline settings rt) KeyPost p)
    {kp : String × CreateSessionRequest} {i : Nat} (h : successful p kp i = true) :
    ∃ a e, CreatedUnder i kp a p.config e := by
  obtain ⟨r, reply, htask, hkey⟩ := successful_eq_true h
  obtain ⟨a, -, e, hcreated⟩ := hsafe.post_ret htask kp hkey
  exact ⟨a, e, hcreated⟩

/-- A kind of call that only the settling request makes, and it once, is made once in all. -/
theorem callsUnder_le_one {p : AgentPool settings rt}
    (hsafe : Pool.AllSafe (keyDiscipline settings rt) KeyPost p)
    (kp : String × CreateSessionRequest) {which : Event (backend settings rt) Request → Bool}
    (hself : ∀ i a e, CreatedUnder i kp a p.config e →
      (∃ e' ∈ own i p.config.history, which e') → e.task = i)
    (honce : ∀ i a e, CreatedUnder i kp a p.config e →
      (own i p.config.history).countP which ≤ 1) : callsUnder p kp which ≤ 1 := by
  by_cases hnone : ∀ e ∈ p.config.history, successful p kp e.task = true → which e = false
  · have hzero : callsUnder p kp which = 0 := by
      refine List.countP_eq_zero.mpr fun e he => ?_
      cases hs : successful p kp e.task with
      | false => simp
      | true => simp [hnone e he hs]
    omega
  · push Not at hnone
    obtain ⟨e₀, he₀, hs₀, hw₀⟩ := hnone
    obtain ⟨a, e, hcreated⟩ := createdUnder_of_successful hsafe hs₀
    have hwhich : which e₀ = true := by simpa using hw₀
    -- whoever else makes such a call is the request that settled, like the one of `e₀`
    have hleader : ∀ e₁ ∈ p.config.history, successful p kp e₁.task = true → which e₁ = true →
        e₁.task = e₀.task := by
      intro e₁ he₁ hs₁ hw₁
      obtain ⟨a₁, e', hcreated₁⟩ := createdUnder_of_successful hsafe hs₁
      have heq := hsafe.keeps.once e hcreated.made e' hcreated₁.made hcreated.settles
        hcreated₁.settles kp hcreated.key hcreated₁.key
      have h₀ := hself _ _ _ hcreated ⟨e₀, List.mem_filter.mpr ⟨he₀, by simp⟩, hwhich⟩
      have h₁ := hself _ _ _ hcreated₁ ⟨e₁, List.mem_filter.mpr ⟨he₁, by simp⟩, hw₁⟩
      rw [← h₀, ← h₁, heq]
    have hle : callsUnder p kp which ≤ (own e₀.task p.config.history).countP which := by
      unfold own callsUnder
      rw [List.countP_filter]
      refine List.countP_mono_left fun e₁ he₁ h₁ => ?_
      rw [Bool.and_eq_true] at h₁
      simp [h₁.2, hleader e₁ he₁ h₁.1 h₁.2]
    exact hle.trans (honce _ _ _ hcreated)

/-- **Creation is idempotent per key**, in every run in which the keys of creations are theirs
alone and no creation settles after another one with its key and payload has. -/
theorem create_idempotent {p : AgentPool settings rt}
    (h : (system settings rt).ReachableVia UnderKey p) : CreateIdempotent p := by
  have hsafe := allSafe_underKey h
  constructor
  · intro i j r r' a b kp hi hj hkey hkey'
    obtain ⟨_, heqa, e, ha⟩ := hsafe.post_ret hi kp hkey
    obtain ⟨_, heqb, e', hb⟩ := hsafe.post_ret hj kp hkey'
    cases heqa
    cases heqb
    obtain rfl := hsafe.keeps.once e ha.made e' hb.made ha.settles hb.settles kp ha.key hb.key
    cases hids : storedIds e with
    | some ids =>
        have hsame := (ha.ids ids hids).symm.trans (hb.ids ids hids)
        exact ⟨congrArg Prod.fst hsame, congrArg Prod.snd hsame⟩
    | none =>
        have hij : i = j := (ha.self (Or.inl hids)).symm.trans (hb.self (Or.inl hids))
        subst hij
        cases hi.symm.trans hj
        exact ⟨rfl, rfl⟩
  · intro kp
    refine ⟨callsUnder_le_one hsafe kp ?_ fun _ _ _ h => h.creates,
      callsUnder_le_one hsafe kp ?_ fun _ _ _ h => h.counts⟩
    · rintro i a e hcreated ⟨e', he', hwhich⟩
      exact hcreated.self (Or.inr ⟨e', he', Or.inl hwhich⟩)
    · rintro i a e hcreated ⟨e', he', hwhich⟩
      exact hcreated.self (Or.inr ⟨e', he', Or.inr hwhich⟩)
  · intro i r k payload htask hkey
    exact hsafe.post_raise htask (k, payload) hkey rfl

end idempotency

/-! ## Two runs -/

/-- `MayCreate`, computed. -/
def mayCreateCheck (r : Request) (op : Op (workflow sampleDeps))
    (c : Config (backend sampleSettings (workflow sampleDeps)) Request) : Bool :=
  match keyOf r with
  | none => true
  | some kp =>
      match op with
      | .hit _ | .createRun _ =>
          c.history.all fun e => !settles e || decide (keyOf e.request ≠ some kp)
      | .findIdempotentGlobal k =>
          c.store.runs.all fun row =>
            decide (row.idempotencyKey ≠ some k) || decide (row.runType = .sessionInit)
      | _ => true

def underKeyCheck (p : SamplePool) : SampleMove → Bool
  | .start _ => true
  | .step i _ =>
      match p.tasks[i]? with
      | some ⟨r, .call op _⟩ => mayCreateCheck r op p.config
      | _ => true

theorem underKey_of_check (p : SamplePool) (m : SampleMove) (h : underKeyCheck p m = true) :
    UnderKey p m := by
  cases m with
  | start r => exact trivial
  | step i x =>
      intro r op k htask kp hkey
      simp only [underKeyCheck, htask, mayCreateCheck, hkey] at h
      cases op with
      | hit key =>
          intro e he hs
          have := List.all_eq_true.mp h e he
          simpa [hs] using this
      | createRun values =>
          intro e he hs
          have := List.all_eq_true.mp h e he
          simpa [hs] using this
      | findIdempotentGlobal key =>
          intro row hrow hk
          have := List.all_eq_true.mp h row hrow
          simpa [hk] using this
      | _ => exact trivial

def chatCreation : Request := .createSession chatPayload (some "key") "trace-1"

/-- A creation, and the same request once more. -/
def replayMoves : List SampleMove :=
  [.start chatCreation] ++
    calls 0 [sampleInput 1 "" "", sampleInput 1 "session-1" "run-1", sampleInput 1 "" "run-1'",
      sampleInput 1 "" ""] ++
  [.start chatCreation] ++ calls 1 [sampleInput 2 "" "", sampleInput 2 "" ""]

def replayPool : SamplePool :=
  (sampleSystem.runChecked underKeyCheck emptyPool replayMoves).get rfl

theorem replay_returns_session :
    ∃ a b, replayPool.tasks[0]? = some ⟨chatCreation, .ret (.created a)⟩ ∧
      replayPool.tasks[1]? = some ⟨chatCreation, .ret (.created b)⟩ ∧
      a.sessionId = b.sessionId ∧ a.runId = b.runId := by
  have hreach : sampleSystem.ReachableVia UnderKey replayPool :=
    TransitionSystem.ReachableVia.of_runChecked underKey_of_check (.init emptyPool_init)
      (Option.some_get rfl).symm
  exact ⟨_, _, rfl, rfl, (create_idempotent hreach).same 0 1 _ _ _ _ _ rfl rfl rfl rfl⟩

/-- Two creations under one key that look it up before either has stored its run. -/
def overlappingMoves : List SampleMove :=
  [.start chatCreation, .start chatCreation] ++ calls 0 [sampleInput 1 "" ""] ++
    calls 1 [sampleInput 1 "" ""] ++
    calls 0 [sampleInput 1 "session-1" "run-1", sampleInput 1 "" "run-1'", sampleInput 1 "" ""] ++
    calls 1 [sampleInput 1 "session-2" "run-2", sampleInput 1 "" "run-2'", sampleInput 1 "" ""]

def overlappingPool : SamplePool := (sampleSystem.run emptyPool overlappingMoves).get rfl

/-- Both succeed, with a session each. -/
theorem overlapping_creations_differ :
    ¬ ∀ p, sampleSystem.Reachable p → CreateIdempotent p := by
  intro hall
  have hreach : sampleSystem.Reachable overlappingPool :=
    TransitionSystem.Reachable.of_run (.init emptyPool_init) (Option.some_get rfl).symm
  have hsame := (hall _ hreach).same 0 1 _ _ _ _ _ rfl rfl rfl rfl
  exact absurd hsame.1 (by decide)

end EnergyAgent.Agent
