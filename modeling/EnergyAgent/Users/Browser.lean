import EnergyAgent.Users.Issuance

/-!
# A browser and its session

All tabs of a browser share the cookies, and any of them may find that its access token has expired.
`refreshSession` makes them take turns: a tab asks for the lock `energy-auth-refresh`, and the holder has
the frontend server replace the refresh token in the cookie. The requests of everybody else go on
meanwhile.

The browser grants the lock to one tab at a time, in the order of the requests. What a response does to
the cookies is written by the handlers under `app/api/auth`; the access token is left out.
-/

namespace EnergyAgent.Users

open EnergyAgent.Core EnergyAgent.Lib

/-! ## The browser -/

/-- The tab that holds the lock, and the refresh that it waits for. -/
structure Flight where
  tab : Nat
  task : Nat
  deriving DecidableEq, Repr

structure Browser where
  pool : UserPool
  /-- The refresh token in the cookies. -/
  cookie : Option RefreshToken
  /-- The tabs that wait for the lock. -/
  waiting : List Nat
  flight : Option Flight
  /-- The logins and changes of the password that have not been answered yet. -/
  entering : List Nat
  /-- The requests that the browser has sent. -/
  mine : List Nat
  /-- Those of them whose token it has got. -/
  received : List Nat

inductive BrowserMove
  /-- Another client sends a request, or the browser one that leaves the cookies as they are. -/
  | other (r : Request)
  /-- A request makes its next call. -/
  | call (i : Nat) (x : CallInput)
  /-- A login or a change of the password. -/
  | enter (r : Request)
  | entered (i : Nat)
  /-- It is not answered. -/
  | missed (i : Nat)
  /-- A tab begins a refresh, gets the lock, has its answer. -/
  | want (tab : Nat)
  | acquire (expired limited : Bool) (now : Nat)
  | answered
  /-- The frontend server has no answer from the backend. -/
  | lost
  /-- Five seconds are over, the tab is closed, or its answer gets lost. -/
  | abort (tab : Nat)
  /-- A logout is answered, or the cookies expire. -/
  | clear
  /-- A logout that is not let in renews the tokens for itself. -/
  | renew (expired limited : Bool) (now : Nat)

/-- What request `i` has come to. -/
def reply (p : UserPool) (i : Nat) : Option (Except AuthError Reply) :=
  match p.tasks[i]? with
  | some ⟨_, .ret a⟩ => some (.ok a)
  | some ⟨_, .raise e⟩ => some (.error e)
  | _ => none

/-- The token that request `i` has returned. -/
def returnedToken (p : UserPool) (i : Nat) : Option RefreshToken :=
  match reply p i with
  | some (.ok (.tokens response)) => some response.refreshToken
  | _ => none

/-- The requests whose answer sets the cookies. -/
def enters : Request → Bool
  | .login _ _ _ _ | .changePassword _ _ _ _ => true
  | _ => false

/-- The refresh that the frontend server sends for a cookie. -/
def refreshOf (token : RefreshToken) (expired limited : Bool) (now : Nat) : Request :=
  .refresh (if expired then .expired else .claims token) limited now

variable (codec : Codec) (settings : AuthSettings)

def arrive (p : UserPool) (r : Request) : UserPool :=
  { p with tasks := p.tasks ++ [⟨r, serve codec settings r⟩] }

namespace Browser

/-- The browser has a request sent. -/
def send (b : Browser) (r : Request) : Browser :=
  { b with pool := arrive codec settings b.pool r, mine := b.mine ++ [b.pool.tasks.length] }

/-- `setAuthCookies` with the token of request `i`. -/
def receive (b : Browser) (i : Nat) (token : RefreshToken) : Browser :=
  { b with cookie := some token, received := i :: b.received }

def step (b : Browser) : BrowserMove → Option Browser
  | .other r => some { b with pool := arrive codec settings b.pool r }
  | .call i x => (b.pool.advance i x).map fun pool => { b with pool := pool }
  | .enter r =>
      if enters r then
        some { b.send codec settings r with entering := b.pool.tasks.length :: b.entering }
      else none
  | .entered i =>
      if i ∈ b.entering ∧ (reply b.pool i).isSome then
        let b' := { b with entering := b.entering.filter (· ≠ i) }
        match returnedToken b.pool i with
        | some token => some (b'.receive i token)
        | none => some b'
      else none
  | .missed i => some { b with entering := b.entering.filter (· ≠ i) }
  | .want tab => some { b with waiting := b.waiting ++ [tab] }
  | .acquire expired limited now =>
      match b.flight, b.waiting with
      | none, tab :: rest =>
          let b' := { b with waiting := rest }
          match b.cookie with
          | none => some b'
          | some token => some { b'.send codec settings (refreshOf token expired limited now) with
              flight := some ⟨tab, b.pool.tasks.length⟩ }
      | _, _ => none
  | .answered =>
      match b.flight with
      | none => none
      | some f =>
          if (reply b.pool f.task).isSome then
            let b' := { b with flight := none }
            match returnedToken b.pool f.task with
            | some token => some (b'.receive f.task token)
            | none => some { b' with cookie := none }
          else none
  | .lost => b.flight.map fun _ => { b with flight := none, cookie := none }
  | .abort tab => some { b with
      waiting := b.waiting.filter (· ≠ tab)
      flight := b.flight.filter (·.tab ≠ tab) }
  | .clear => some { b with cookie := none }
  | .renew expired limited now =>
      b.cookie.map fun token => b.send codec settings (refreshOf token expired limited now)

end Browser

/-- The browser among the other clients. It starts without a session. -/
def browser : TransitionSystem Browser BrowserMove where
  init b := (system codec settings).init b.pool ∧ b.cookie = none ∧ b.flight = none ∧
    b.entering = [] ∧ b.mine = [] ∧ b.received = []
  step := Browser.step codec settings

/-- No refresh is given up once it has been sent, and no logout sends one of its own. -/
def Patient (b : Browser) : BrowserMove → Prop
  | .abort tab => ∀ f ∈ b.flight, f.tab ≠ tab
  | .renew _ _ _ => False
  | _ => True

/-! ## What the pool keeps -/

/-- What a browser counts on while the requests of others go on. -/
structure Grown (p q : UserPool) : Prop where
  length : p.tasks.length ≤ q.tasks.length
  returned : ∀ i token, Returned p i token → Returned q i token
  presents : ∀ i token, i < p.tasks.length → Presents q i token → Presents p i token

variable {codec settings} {p q : UserPool}

theorem grown_arrive (r : Request) : Grown p (arrive codec settings p r) where
  length := by simp [arrive]
  returned i token h := by
    obtain ⟨r', response, htask, htoken⟩ := h
    refine ⟨r', response, ?_, htoken⟩
    exact (List.getElem?_append_left (List.getElem?_eq_some_iff.mp htask).1).trans htask
  presents i token hi h := by
    obtain ⟨r', rest, htask, htoken⟩ := h
    exact ⟨r', rest, (List.getElem?_append_left hi).symm.trans htask, htoken⟩

theorem grown_advance {i : Nat} {x : CallInput} (h : p.advance i x = some q) : Grown p q := by
  unfold Pool.advance at h
  split at h
  · next r op k htask =>
      obtain ⟨answer, -, rfl⟩ := Option.map_eq_some_iff.mp h
      refine ⟨by simp, ?_, ?_⟩
      · rintro j token ⟨r', response, hj, htoken⟩
        refine ⟨r', response, ?_, htoken⟩
        by_cases hij : i = j
        · -- a request that has returned makes no call
          rw [← hij, htask] at hj
          cases hj
        · exact (List.getElem?_set_ne hij).trans hj
      · rintro j token - ⟨r', rest, hj, htoken⟩
        rcases Pool.task_step hj with ⟨rfl, hnew⟩ | ⟨-, hold⟩
        · cases hnew
          exact ⟨r, _, htask, htoken⟩
        · exact ⟨r', rest, hold, htoken⟩
  · cases h

/-- The request that has arrived last. -/
theorem presents_arrive {r : Request} {token : RefreshToken}
    (h : Presents (arrive codec settings p r) p.tasks.length token) : r.presented = some token := by
  obtain ⟨r', rest, htask, htoken⟩ := h
  rw [arrive, List.getElem?_concat_length] at htask
  cases htask
  exact htoken

theorem returned_of_reply {i : Nat} {token : RefreshToken} (h : returnedToken p i = some token) :
    Returned p i token := by
  unfold returnedToken reply at h
  split at h
  · next response heq =>
      cases h
      split at heq
      · next r a htask =>
          cases heq
          exact ⟨r, response, htask, rfl⟩
      · cases heq
      · cases heq
  · cases h

theorem reach_arrive (h : (system codec settings).Reachable p) (r : Request) :
    (system codec settings).Reachable (arrive codec settings p r) :=
  h.step (a := .start r) trivial rfl

theorem reach_advance (h : (system codec settings).Reachable p) {i : Nat} {x : CallInput}
    (hstep : p.advance i x = some q) : (system codec settings).Reachable q :=
  h.step (a := .step i x) trivial hstep

/-! ## The invariant -/

/-- Request `i` is one whose answer may still set the cookies. -/
def Browser.Pending (b : Browser) (i : Nat) : Prop := i ∈ b.entering ∨ ∃ f ∈ b.flight, f.task = i

/-- The tokens of a browser: it presents only what it has got, and none of them twice. -/
structure Calm (codec : Codec) (settings : AuthSettings) (b : Browser) : Prop where
  reach : (system codec settings).Reachable b.pool
  mine : ∀ i ∈ b.mine, i < b.pool.tasks.length
  received : ∀ i ∈ b.received, i ∈ b.mine
  pending : ∀ i, b.Pending i → i ∈ b.mine ∧ i ∉ b.received
  apart : ∀ f ∈ b.flight, f.task ∉ b.entering
  presented : ∀ i ∈ b.mine, ∀ token, Presents b.pool i token → ∃ k ∈ b.received, Returned b.pool k token
  once : ∀ i ∈ b.mine, ∀ j ∈ b.mine, ∀ token, Presents b.pool i token → Presents b.pool j token → i = j
  cookie : ∀ token ∈ b.cookie, ∃ k ∈ b.received, Returned b.pool k token

/-- If the token in the cookie has been presented, then by the refresh under way. -/
def Browser.Unspent (b : Browser) : Prop :=
  ∀ token ∈ b.cookie, ∀ i ∈ b.mine, Presents b.pool i token → ∃ f ∈ b.flight, f.task = i

namespace Calm

variable {b : Browser}

/-- The other requests go on. -/
theorem grow (h : Calm codec settings b) (hq : (system codec settings).Reachable q)
    (hgrown : Grown b.pool q) : Calm codec settings { b with pool := q } where
  reach := hq
  mine i hi := Nat.lt_of_lt_of_le (h.mine i hi) hgrown.length
  received := h.received
  pending := h.pending
  apart := h.apart
  presented i hi token hpres := by
    obtain ⟨k, hk, hreturned⟩ := h.presented i hi token (hgrown.presents i token (h.mine i hi) hpres)
    exact ⟨k, hk, hgrown.returned k token hreturned⟩
  once i hi j hj token hpres hpres' := h.once i hi j hj token
    (hgrown.presents i token (h.mine i hi) hpres) (hgrown.presents j token (h.mine j hj) hpres')
  cookie token hcookie := by
    obtain ⟨k, hk, hreturned⟩ := h.cookie token hcookie
    exact ⟨k, hk, hgrown.returned k token hreturned⟩

theorem unspent_grow (h : Calm codec settings b) (hb : b.Unspent) (hgrown : Grown b.pool q) :
    Browser.Unspent { b with pool := q } := fun token hcookie i hi hpres =>
  hb token hcookie i hi (hgrown.presents i token (h.mine i hi) hpres)

/-- The browser forgets some of what it waits for, and perhaps the cookie. -/
theorem forget (h : Calm codec settings b) {cookie : Option RefreshToken} {waiting entering : List Nat}
    {flight : Option Flight} (hcookie : ∀ token ∈ cookie, token ∈ b.cookie)
    (hflight : ∀ f ∈ flight, f ∈ b.flight) (hentering : ∀ i ∈ entering, i ∈ b.entering) :
    Calm codec settings
      { b with cookie := cookie, waiting := waiting, flight := flight, entering := entering } where
  reach := h.reach
  mine := h.mine
  received := h.received
  pending i hi := by
    refine h.pending i (hi.imp (hentering i) ?_)
    rintro ⟨f, hf, rfl⟩
    exact ⟨f, hflight f hf, rfl⟩
  apart f hf hmem := h.apart f (hflight f hf) (hentering _ hmem)
  presented := h.presented
  once := h.once
  cookie token htoken := h.cookie token (hcookie token htoken)

/-- A token that the browser has waited for becomes its cookie. -/
theorem receive (h : Calm codec settings b) {i : Nat} {token : RefreshToken} (hi : i ∈ b.mine)
    (hreturned : Returned b.pool i token) (hpending : ¬ b.Pending i) :
    Calm codec settings (b.receive i token) where
  reach := h.reach
  mine := h.mine
  received j hj := by
    rcases List.mem_cons.mp hj with rfl | hold
    · exact hi
    · exact h.received j hold
  pending j hj := by
    refine ⟨(h.pending j hj).1, fun hmem => ?_⟩
    rcases List.mem_cons.mp hmem with rfl | hold
    · exact hpending hj
    · exact (h.pending j hj).2 hold
  apart := h.apart
  presented j hj t hpres := by
    obtain ⟨k, hk, hk'⟩ := h.presented j hj t hpres
    exact ⟨k, List.mem_cons_of_mem _ hk, hk'⟩
  once := h.once
  cookie t ht := by
    cases ht
    exact ⟨i, List.mem_cons_self, hreturned⟩

/-- Nothing that has been presented is received once more: the token is its request's alone. -/
theorem unspent_receive (h : Calm codec settings b) {i : Nat} {token : RefreshToken}
    (hreturned : Returned b.pool i token) (hi : i ∉ b.received) : (b.receive i token).Unspent := by
  intro t ht j hj hpres
  cases ht
  obtain ⟨k, hk, hk'⟩ := h.presented j hj token hpres
  rw [hk'.unique h.reach hreturned] at hk
  exact absurd hk hi

/-- A request that presents nothing, or the cookie that has not been presented yet. -/
theorem send (h : Calm codec settings b) {r : Request}
    (hr : ∀ token, r.presented = some token →
      token ∈ b.cookie ∧ ∀ i ∈ b.mine, ¬ Presents b.pool i token) :
    Calm codec settings (b.send codec settings r) := by
  have hgrown : Grown b.pool (arrive codec settings b.pool r) := grown_arrive r
  have hq := h.grow (reach_arrive h.reach r) hgrown
  have hold : ∀ i ∈ b.mine, ∀ token, Presents (arrive codec settings b.pool r) i token →
      Presents b.pool i token := fun i hi token => hgrown.presents i token (h.mine i hi)
  refine ⟨hq.reach, ?_, ?_, ?_, h.apart, ?_, ?_, hq.cookie⟩
  · intro i hi
    rcases List.mem_append.mp hi with hi | hi
    · exact hq.mine i hi
    · rw [List.mem_singleton.mp hi]
      simp [Browser.send, arrive]
  · exact fun i hi => List.mem_append_left _ (h.received i hi)
  · exact fun i hi => ⟨List.mem_append_left _ (h.pending i hi).1, (h.pending i hi).2⟩
  · intro i hi token hpres
    rcases List.mem_append.mp hi with hi | hi
    · exact hq.presented i hi token hpres
    · rw [List.mem_singleton.mp hi] at hpres
      exact hq.cookie token (hr token (presents_arrive hpres)).1
  · intro i hi j hj token hpres hpres'
    rcases List.mem_append.mp hi with hi | hi <;> rcases List.mem_append.mp hj with hj | hj
    · exact hq.once i hi j hj token hpres hpres'
    · rw [List.mem_singleton.mp hj] at hpres'
      exact absurd (hold i hi token hpres) ((hr token (presents_arrive hpres')).2 i hi)
    · rw [List.mem_singleton.mp hi] at hpres
      exact absurd (hold j hj token hpres') ((hr token (presents_arrive hpres)).2 j hj)
    · rw [List.mem_singleton.mp hi, List.mem_singleton.mp hj]

/-- The new request is not yet one of the received. -/
theorem new_notMem (h : Calm codec settings b) : b.pool.tasks.length ∉ b.mine :=
  fun hmem => Nat.lt_irrefl _ (h.mine _ hmem)

end Calm

/-- What holds of an undisturbed browser in every state. -/
def InOrder (codec : Codec) (settings : AuthSettings) (b : Browser) : Prop :=
  Calm codec settings b ∧ b.Unspent

section steps

variable {b b' : Browser}

/-- The cookies and the flight stay, or both are given up. -/
theorem InOrder.forget (h : InOrder codec settings b) {cookie : Option RefreshToken}
    {waiting entering : List Nat} {flight : Option Flight}
    (hkept : cookie = b.cookie ∧ flight = b.flight ∨ cookie = none ∧ ∀ f ∈ flight, f ∈ b.flight)
    (hentering : ∀ i ∈ entering, i ∈ b.entering) : InOrder codec settings
      { b with cookie := cookie, waiting := waiting, flight := flight, entering := entering } := by
  rcases hkept with ⟨rfl, rfl⟩ | ⟨rfl, hflight⟩
  · exact ⟨h.1.forget (fun _ ht => ht) (fun _ hf => hf) hentering, h.2⟩
  · refine ⟨h.1.forget (fun _ ht => ?_) hflight hentering, fun _ ht => ?_⟩ <;> cases ht

/-- A request of the browser that presents nothing. -/
theorem inOrder_enter (h : InOrder codec settings b) {r : Request} (hr : enters r = true) :
    InOrder codec settings
      { b.send codec settings r with entering := b.pool.tasks.length :: b.entering } := by
  have hnone : ∀ token, r.presented ≠ some token := by
    intro token htoken
    cases r with
    | login | changePassword => cases htoken
    | _ => cases hr
  have hsent : Calm codec settings (b.send codec settings r) :=
    h.1.send fun token htoken => absurd htoken (hnone token)
  refine ⟨{ hsent with pending := ?_, apart := ?_ }, ?_⟩
  · rintro i (hi | hi)
    · rcases List.mem_cons.mp hi with rfl | hold
      · exact ⟨List.mem_append_right _ (List.mem_singleton_self _),
          fun hmem => h.1.new_notMem (h.1.received _ hmem)⟩
      · exact hsent.pending i (Or.inl hold)
    · exact hsent.pending i (Or.inr hi)
  · intro f hf hmem
    rcases List.mem_cons.mp hmem with hnew | hold
    · exact h.1.new_notMem (hnew ▸ (h.1.pending f.task (Or.inr ⟨f, hf, rfl⟩)).1)
    · exact h.1.apart f hf hold
  · intro token hcookie i hi hpres
    rcases List.mem_append.mp hi with hi | hi
    · exact h.1.unspent_grow h.2 (grown_arrive r) token hcookie i hi hpres
    · rw [List.mem_singleton.mp hi] at hpres
      exact absurd (presents_arrive hpres) (hnone token)

/-- **The holder of the lock presents the cookie**, and nobody has presented it before. -/
theorem inOrder_acquire (h : InOrder codec settings b) (hfree : b.flight = none) {token : RefreshToken}
    (hcookie : b.cookie = some token) (tab : Nat) (expired limited : Bool) (now : Nat) :
    InOrder codec settings
      { b.send codec settings (refreshOf token expired limited now) with
        flight := some ⟨tab, b.pool.tasks.length⟩ } := by
  have hpresented : ∀ t, (refreshOf token expired limited now).presented = some t → t = token := by
    intro t ht
    cases expired with
    | true => cases ht
    | false => exact (Option.some.inj ht).symm
  have hsent : Calm codec settings (b.send codec settings (refreshOf token expired limited now)) := by
    refine h.1.send fun t ht => ?_
    rw [hpresented t ht]
    refine ⟨hcookie, fun i hi hpres => ?_⟩
    obtain ⟨f, hf, -⟩ := h.2 token hcookie i hi hpres
    rw [hfree] at hf
    cases hf
  refine ⟨{ hsent with pending := ?_, apart := ?_ }, ?_⟩
  · rintro i (hi | ⟨f, hf, rfl⟩)
    · exact hsent.pending i (Or.inl hi)
    · cases hf
      exact ⟨List.mem_append_right _ (List.mem_singleton_self _),
        fun hmem => h.1.new_notMem (h.1.received _ hmem)⟩
  · intro f hf hmem
    cases hf
    exact h.1.new_notMem (h.1.pending _ (Or.inl hmem)).1
  · intro t ht i hi hpres
    rcases List.mem_append.mp hi with hi | hi
    · obtain ⟨f, hf, -⟩ := h.1.unspent_grow h.2 (grown_arrive _) t ht i hi hpres
      rw [hfree] at hf
      cases hf
    · exact ⟨_, rfl, (List.mem_singleton.mp hi).symm⟩

/-- An answer with a token, to a request that the browser has waited for. -/
theorem inOrder_receive (h : InOrder codec settings b) {i : Nat} {token : RefreshToken}
    (hi : b.Pending i) (hreturned : Returned b.pool i token) {entering : List Nat}
    {flight : Option Flight} (hflight : ∀ f ∈ flight, f ∈ b.flight ∧ f.task ≠ i)
    (hentering : ∀ j ∈ entering, j ∈ b.entering ∧ j ≠ i) :
    InOrder codec settings
      (Browser.receive { b with flight := flight, entering := entering } i token) := by
  have hforget : Calm codec settings { b with flight := flight, entering := entering } :=
    h.1.forget (fun _ ht => ht) (fun f hf => (hflight f hf).1) fun j hj => (hentering j hj).1
  refine ⟨hforget.receive (h.1.pending i hi).1 hreturned ?_,
    hforget.unspent_receive hreturned (h.1.pending i hi).2⟩
  rintro (hmem | ⟨f, hf, htask⟩)
  · exact (hentering i hmem).2 rfl
  · exact (hflight f hf).2 htask

/-- **The step lemma.** -/
theorem inOrder_step (h : InOrder codec settings b) {m : BrowserMove} (hm : Patient b m)
    (hstep : b.step codec settings m = some b') : InOrder codec settings b' := by
  cases m with
  | other r =>
      cases hstep
      exact ⟨h.1.grow (reach_arrive h.1.reach r) (grown_arrive r), h.1.unspent_grow h.2 (grown_arrive r)⟩
  | call i x =>
      obtain ⟨q, hq, rfl⟩ := Option.map_eq_some_iff.mp hstep
      exact ⟨h.1.grow (reach_advance h.1.reach hq) (grown_advance hq),
        h.1.unspent_grow h.2 (grown_advance hq)⟩
  | enter r =>
      simp only [Browser.step] at hstep
      split at hstep
      · next henters =>
          cases hstep
          exact inOrder_enter h henters
      · cases hstep
  | entered i =>
      simp only [Browser.step] at hstep
      split at hstep
      · next hi =>
          have hrest : ∀ j ∈ b.entering.filter (· ≠ i), j ∈ b.entering ∧ j ≠ i := by
            intro j hj
            simpa using hj
          split at hstep
          · next token hreturned =>
              cases hstep
              refine inOrder_receive h (Or.inl hi.1) (returned_of_reply hreturned)
                (fun f hf => ⟨hf, fun heq => ?_⟩) hrest
              exact h.1.apart f hf (heq ▸ hi.1)
          · cases hstep
            exact h.forget (Or.inl ⟨rfl, rfl⟩) fun j hj => (hrest j hj).1
      · cases hstep
  | missed i =>
      cases hstep
      exact h.forget (Or.inl ⟨rfl, rfl⟩) fun j hj => (List.mem_filter.mp hj).1
  | want tab =>
      cases hstep
      exact h.forget (Or.inl ⟨rfl, rfl⟩) fun _ hj => hj
  | acquire expired limited now =>
      simp only [Browser.step] at hstep
      split at hstep
      · next tab rest hflight hwaiting =>
          have hqueue : InOrder codec settings { b with waiting := rest } :=
            h.forget (Or.inl ⟨rfl, rfl⟩) fun _ hj => hj
          split at hstep
          · cases hstep
            exact hqueue
          · next token hcookie =>
              cases hstep
              exact inOrder_acquire hqueue hflight hcookie tab expired limited now
      · cases hstep
  | answered =>
      simp only [Browser.step] at hstep
      split at hstep
      · cases hstep
      · next f hflight =>
          split at hstep
          · split at hstep
            · next token hreturned =>
                cases hstep
                refine inOrder_receive h (Or.inr ⟨f, hflight, rfl⟩) (returned_of_reply hreturned)
                  (fun f hf => ?_) fun j hj => ⟨hj, fun heq => ?_⟩
                · cases hf
                · exact h.1.apart f hflight (heq ▸ hj)
            · cases hstep
              refine h.forget (Or.inr ⟨rfl, fun f hf => ?_⟩) fun _ hj => hj
              cases hf
          · cases hstep
  | lost =>
      obtain ⟨f, -, rfl⟩ := Option.map_eq_some_iff.mp hstep
      refine h.forget (Or.inr ⟨rfl, fun f hf => ?_⟩) fun _ hj => hj
      cases hf
  | abort tab =>
      cases hstep
      have hflight : b.flight.filter (·.tab ≠ tab) = b.flight := by
        cases hb : b.flight with
        | none => rfl
        | some f => simp [Option.filter, hm f hb]
      exact h.forget (Or.inl ⟨rfl, hflight⟩) fun _ hj => hj
  | clear =>
      cases hstep
      exact h.forget (Or.inr ⟨rfl, fun _ hf => hf⟩) fun _ hj => hj
  | renew expired limited now => exact hm.elim

theorem inOrder_of_reachable (h : (browser codec settings).ReachableVia Patient b) :
    InOrder codec settings b := by
  refine h.invariant (fun b hinit => ?_) fun _ _ _ hb hm hstep => inOrder_step hb hm hstep
  obtain ⟨hpool, hcookie, hflight, hentering, hmine, hreceived⟩ := hinit
  refine ⟨⟨.init hpool, ?_, ?_, ?_, ?_, ?_, ?_, ?_⟩, ?_⟩ <;>
    simp [hcookie, hflight, hentering, hmine, hreceived, Browser.Pending, Browser.Unspent]

end steps

/-! ## The session is kept -/

section runs

variable {b : Browser}

/-- Nobody else has presented a token of the browser. -/
def Browser.Confidential (b : Browser) : Prop :=
  ∀ i ∈ b.mine, ∀ token, Returned b.pool i token → ∀ k, Presents b.pool k token → k ∈ b.mine

/-- **A browser does not revoke its own session.** However its tabs, its logins and the requests of
others interleave, as long as no refresh is given up once it has been sent: the session of its cookie
has not been rotated away but by the refresh that is under way, and when a refresh of the browser raises
`AuthRefreshReused`, it was not a rotation that had revoked the session. -/
theorem session_kept (h : (browser codec settings).ReachableVia Patient b) (hkept : b.Confidential) :
    (∀ token, b.cookie = some token → ∃ row, Stored b.pool.config.store token row ∧
      (row.revokeReason = some "rotated" →
        ∃ f, b.flight = some f ∧ (f.task, token) ∈ rotations b.pool.config.history)) ∧
    ∀ j ∈ b.mine, ∀ token, ReuseRaised b.pool j token →
      ∃ row, Stored b.pool.config.store token row ∧ row.revokedAt ≠ none ∧
        row.revokeReason ≠ some "rotated" := by
  obtain ⟨hcalm, hunspent⟩ := inOrder_of_reachable h
  have hkeeps := issueKeeps_of_reachable hcalm.reach
  constructor
  · intro token hcookie
    obtain ⟨k, hk, hreturned⟩ := hcalm.cookie token hcookie
    obtain ⟨row, hrow⟩ := hkeeps.issued _ (hreturned.issued hcalm.reach)
    refine ⟨row, hrow, fun hreason => ?_⟩
    obtain ⟨i, hi⟩ := hkeeps.rotated row (Table.get_eq_some hrow.1).1 hreason
    rw [hrow.2] at hi
    have hpres := presents_of_rotation hcalm.reach hi
    have hmine := hkept k (hcalm.received k hk) token hreturned i hpres
    obtain ⟨f, hf, rfl⟩ := hunspent token hcookie i hmine hpres
    exact ⟨f, hf, hi⟩
  · intro j hj token hreuse
    obtain ⟨row, hrow, hrevoked, hreason⟩ := reuse_explained hcalm.reach hreuse
    refine ⟨row, hrow, hrevoked, fun hrotated => ?_⟩
    obtain ⟨k, hne, hpres, -⟩ := hreason hrotated
    obtain ⟨limited, now, htask⟩ := hreuse
    have hown : Presents b.pool j token := ⟨_, _, htask, rfl⟩
    obtain ⟨i, hi, hreturned⟩ := hcalm.presented j hj token hown
    have hmine := hkept i (hcalm.received i hi) token hreturned k hpres
    exact hne (hcalm.once k hmine j hj token hpres hown)

/-- Nobody but the browser presents a token. -/
theorem confidential_of_forall
    (h : ∀ q ∈ b.pool.tasks.zipIdx, q.1.request.presented = none ∨ q.2 ∈ b.mine) : b.Confidential := by
  rintro i - token - k ⟨r, rest, htask, htoken⟩
  rcases h ⟨⟨r, rest⟩, k⟩ (List.mem_zipIdx_iff_getElem?.mpr htask) with hnone | hmine
  · rw [hnone] at htoken
    cases htoken
  · exact hmine

/-- Two tabs refresh one after the other, and a logout comes between the second and its rotation. -/
def tabMoves : List BrowserMove :=
  .enter (.login "ann" "first-secret" false 1) ::
    List.replicate 4 (.call 0 (sampleInput "session-1" "family-1" "jti-1")) ++
  [.entered 0, .want 0, .want 1, .acquire false false 1] ++
    List.replicate 3 (.call 1 (sampleInput "session-2" "family-2" "jti-2")) ++
  [.answered, .acquire false false 1, .call 2 (sampleInput "session-3" "family-3" "jti-3"),
    .other (.logout ⟨"user-1", .operator⟩ (.claims ⟨"user-1", "session-2", "family-1", "jti-2", 1⟩)),
    .call 3 (sampleInput "session-3" "family-3" "jti-3")] ++
    List.replicate 3 (.call 2 (sampleInput "session-3" "family-3" "jti-3"))

def sampleBrowser : Browser := ⟨samplePool, none, [], none, [], [], []⟩

/-- Where they lead. -/
def tabsAfter : Browser :=
  ((browser sampleCodec sampleSettings).run sampleBrowser tabMoves).get (by decide +kernel)

theorem session_kept_by_tabs : ∃ row,
    Stored tabsAfter.pool.config.store ⟨"user-1", "session-2", "family-1", "jti-2", 1⟩ row ∧
      row.revokedAt ≠ none ∧ row.revokeReason ≠ some "rotated" := by
  have hinit : (browser sampleCodec sampleSettings).init sampleBrowser :=
    ⟨samplePool_init, rfl, rfl, rfl, rfl, rfl⟩
  have hok : ∀ m ∈ tabMoves, ∀ b, Patient b m := by
    intro m hm b
    simp only [tabMoves, List.replicate, List.cons_append, List.nil_append, List.mem_cons,
      List.not_mem_nil, or_false] at hm
    rcases hm with rfl | rfl | rfl | rfl | rfl | rfl | rfl | rfl | rfl | rfl | rfl | rfl | rfl | rfl |
      rfl | rfl | rfl | rfl | rfl | rfl <;> exact trivial
  have hreach : (browser sampleCodec sampleSettings).ReachableVia Patient tabsAfter :=
    TransitionSystem.ReachableVia.of_run hok (.init hinit) (Option.some_get _).symm
  have hkept : tabsAfter.Confidential := confidential_of_forall (by decide +kernel)
  exact (session_kept hreach hkept).2 2 (by decide +kernel) _ ⟨false, 1, rfl⟩

end runs

end EnergyAgent.Users
