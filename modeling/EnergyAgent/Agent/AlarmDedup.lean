import EnergyAgent.Agent.AlarmLedger
import EnergyAgent.Agent.CallRules
import EnergyAgent.Agent.Workflow

/-!
# Alarm deduplication under concurrency

Creations of sessions, failures of sessions and the passage of time. `hit` looks the alarm up and
`register` records it after three other writes, and nothing keeps another call out meanwhile.
`SingleFlight` is the condition under which deduplication holds: an alarm is not looked up while a
call that has missed it has yet to register. Then what the calls do to one alarm is a `Ledger`.
-/

namespace EnergyAgent.Agent.Dedup

open EnergyAgent.Lib

/-- A creation, or the failure of a session. -/
inductive AlarmRequest
  | create (payload : CreateSessionRequest) (key : Option String) (traceId : String)
  | fail (sessionId : String)

section dedup

variable {settings : DedupSettings} {rt : Runtime}

variable (settings) in
def serveAlarm : AlarmRequest → Call settings rt Reply
  | .create payload key traceId =>
      createSession settings payload key traceId >>= fun r => .ret (.created r)
  | .fail sessionId =>
      ask (.updateSession sessionId { phase := some .failed }) >>= fun _ => .ret .unit

variable (settings rt) in
abbrev AlarmConfig := Config (backend settings rt) AlarmRequest

variable (settings rt) in
abbrev AlarmEvent := Event (backend settings rt) AlarmRequest

variable (settings rt) in
abbrev AlarmPool := Pool (backend settings rt) AlarmRequest ExecutionError Reply

variable (settings rt) in
/-- All interleavings of creations and failures, from empty tables. -/
def alarmSystem :
    TransitionSystem (AlarmPool settings rt) (Move (backend settings rt) AlarmRequest) :=
  Pool.system Fresh (serveAlarm settings)

/-! ## What the history says -/

/-- The session and the run that a call drew the ids of. -/
def createdIds : AlarmEvent settings rt → Option (String × String)
  | ⟨_, _, .createSession _, ids⟩ => some ids
  | _ => none

/-- What the call does to the alarm with the given key. -/
def touch (key : String) : AlarmEvent settings rt → Option Touch
  | ⟨i, _, .hit k, (none, now)⟩ => if k = key then some (.missed i now) else none
  | ⟨_, _, .hit k, (some h, now)⟩ => if k = key then some (.counted h.sessionId now) else none
  | ⟨i, _, .register k sessionId _, some now⟩ =>
      if k = key then some (.registered i sessionId now) else none
  | _ => none

/-- What has happened to an alarm. -/
def touches (key : String) (history : List (AlarmEvent settings rt)) : List Touch :=
  history.filterMap (touch key)

/-- The session has failed. -/
def Failed (s : Store) (sessionId : String) : Prop :=
  ∃ row, s.session sessionId = some row ∧ row.phase = .failed

/-- How often the alarm has been counted for the session. -/
def countedCalls (key sessionId : String) (history : List (AlarmEvent settings rt)) : Nat :=
  (touches key history).countP fun e => (e.countsFor sessionId).isSome

/-- **Deduplication holds.** -/
structure DedupHolds (p : AlarmPool settings rt) : Prop where
  /-- Of two calls that looked an alarm up in vain and created sessions, the first one's session
  has failed, or its window was over when the second one looked: no lookup or registration counted
  the alarm for it within the window before. -/
  single : ∀ key i j time time', List.Sublist [.missed i time, .missed j time']
      (touches key p.config.history) →
    ∀ e ∈ p.config.history, e.task = i → ∀ ids, createdIds e = some ids →
      (∃ now, .registered i ids.1 now ∈ touches key p.config.history) ∧
      Ledger.Closed settings.window (Failed p.config.store) (touches key p.config.history) ids.1
        time'
  /-- The row counts the calls attributed to its session. -/
  counted : ∀ row ∈ p.config.store.dedup,
    row.hitCount = countedCalls row.dedupKey row.sessionId p.config.history
  /-- A call counts the alarm once at most; if it has looked the alarm up and returned, it has
  counted it for the session that it returned. -/
  once : ∀ i key sessionId, countedCalls key sessionId (own i p.config.history) ≤ 1
  attributed : ∀ i r a key, p.tasks[i]? = some ⟨r, .ret (.created a)⟩ →
    (∃ e ∈ own i p.config.history, e.op = .hit key) →
    countedCalls key a.sessionId (own i p.config.history) = 1
  /-- A call that raises has neither created a session nor touched an alarm. -/
  raises : ∀ i r error, p.tasks[i]? = some ⟨r, .raise error⟩ →
    ∀ e ∈ own i p.config.history, createdIds e = none ∧ ∀ key, touch key e = none

/-! ## The condition -/

/-- The call has missed the alarm and has yet to register. -/
def Waiting (key : String) (i : Nat) (history : List (AlarmEvent settings rt)) : Prop :=
  (∃ time, .missed i time ∈ touches key history) ∧
    ∀ sessionId now, .registered i sessionId now ∉ touches key history

/-- An alarm is looked up only when no call has missed it without having registered since. -/
def MayLook (op : Op rt) (c : AlarmConfig settings rt) : Prop :=
  ∀ key, op = .hit key → ∀ i, ¬ Waiting key i c.history

/-- The guard of the runs. -/
def SingleFlight (p : AlarmPool settings rt) : Move (backend settings rt) AlarmRequest → Prop
  | .start _ => True
  | .step i _ => ∀ r op k, p.tasks[i]? = some ⟨r, .call op k⟩ → MayLook op p.config

/-! ## The invariant -/

/-- The row of an alarm as the ledger has it. -/
def rowOf (s : Store) (key : String) : Option LedgerRow :=
  (s.dedupRow key).map fun r => ⟨r.sessionId, r.expiresAt, r.hitCount⟩

/-- Who has drawn and stored which ids. -/
structure IdsInvariant (c : AlarmConfig settings rt) : Prop where
  drawn : ∀ e ∈ c.history, ∀ ids, createdIds e = some ids →
    ids.1 ∈ c.store.drawn ∧ ids.2 ∈ c.store.drawn
  distinct : ∀ e ∈ c.history, ∀ e' ∈ c.history, ∀ ids ids', createdIds e = some ids →
    createdIds e' = some ids' → ids.1 = ids'.1 ∨ ids.2 = ids'.2 ∨ e.task = e'.task → e = e'
  sessions : ∀ e ∈ c.history, ∀ ids, createdIds e = some ids →
    (c.store.session ids.1).isSome
  /-- A run belongs to the session that the same request has created. -/
  runs : ∀ row ∈ c.store.runs, ∃ e ∈ c.history, createdIds e = some (row.sessionId, row.id) ∧
    ∃ e' ∈ c.history, e'.task = e.task ∧ ∃ values, e'.op = .createRun values
  /-- A request registers the session that it has created. -/
  registered : ∀ key i sessionId now, .registered i sessionId now ∈ touches key c.history →
    ∃ e ∈ c.history, e.task = i ∧ ∃ runId, createdIds e = some (sessionId, runId)

/-- What the calls have done to the alarm is a ledger of its row. -/
def LedgerAt (key : String) (c : AlarmConfig settings rt) : Prop :=
  ∃ clock openCall, clock ≤ c.store.clock ∧
    Ledger settings.window (Failed c.store) (touches key c.history) clock openCall
      (rowOf c.store key)

structure DedupInvariant (c : AlarmConfig settings rt) : Prop where
  ids : IdsInvariant c
  keys : (c.store.dedup.map DedupRow.dedupKey).Nodup
  ledger : ∀ key, LedgerAt key c
  once : ∀ i key sessionId, countedCalls key sessionId (own i c.history) ≤ 1

/-- What the calls of a request promise the others. -/
structure Guarantee (i : Nat) (c d : AlarmConfig settings rt) : Prop where
  sessions : ∀ s, (c.store.session s).isSome → (d.store.session s).isSome
  alarms : ∀ key, (touches key d.history = touches key c.history ∧
      d.store.dedupRow key = c.store.dedupRow key) ∨
    Waiting key i c.history ∨ ∀ j, ¬ Waiting key j c.history

/-- What a request relies on. -/
structure Undisturbed (i : Nat) (c d : AlarmConfig settings rt) : Prop where
  others : c.Others i d
  sessions : ∀ s, (c.store.session s).isSome → (d.store.session s).isSome
  /-- Nobody touches the alarm that it has missed. -/
  alarms : ∀ key, Waiting key i c.history → touches key d.history = touches key c.history ∧
    d.store.dedupRow key = c.store.dedupRow key

section steps

variable {c d e : AlarmConfig settings rt} {i : Nat} {r : AlarmRequest} {op : Op rt}
  {x : CallInput rt} {a : Ans rt op} {key : String}

theorem Undisturbed.refl : Undisturbed i c c :=
  ⟨.refl, fun _ h => h, fun _ _ => ⟨rfl, rfl⟩⟩

theorem Undisturbed.trans (h : Undisturbed i c d) (h' : Undisturbed i d e) : Undisturbed i c e where
  others := h.others.trans h'.others
  sessions s hs := h'.sessions s (h.sessions s hs)
  alarms key hwait := by
    obtain ⟨htouch, hrow⟩ := h.alarms key hwait
    have hwait' : Waiting key i d.history := by
      unfold Waiting
      rw [htouch]
      exact hwait
    obtain ⟨htouch', hrow'⟩ := h'.alarms key hwait'
    exact ⟨htouch'.trans htouch, hrow'.trans hrow⟩

/-- The request that waits is the one that the ledger has open. -/
theorem open_of_waiting {failed : String → Prop} {clock : Nat} {openCall : Option Nat}
    {row : Option LedgerRow}
    (h : Ledger settings.window failed (touches key d.history) clock openCall row)
    (hwait : Waiting key i d.history) : openCall = some i := by
  obtain ⟨⟨time, hmiss⟩, hnone⟩ := hwait
  refine (h.registered_or_open hmiss).resolve_left ?_
  rintro ⟨s, t, hreg⟩
  exact hnone s t hreg

/-- An alarm waits for one call at most. -/
theorem DedupInvariant.waiting_unique (h : DedupInvariant c) {j : Nat}
    (hi : Waiting key i c.history) (hj : Waiting key j c.history) : i = j := by
  obtain ⟨clock, openCall, -, hledger⟩ := h.ledger key
  exact Option.some.inj ((open_of_waiting hledger hi).symm.trans (open_of_waiting hledger hj))

theorem touches_exec (h : d.exec i r op x = some (a, e)) :
    touches key e.history = touches key d.history ++
      (touch key (⟨i, r, op, a⟩ : AlarmEvent settings rt)).toList := by
  rw [touches, (Config.exec_eq_some h).2, List.filterMap_append]
  cases htouch : touch key (⟨i, r, op, a⟩ : AlarmEvent settings rt) <;>
    simp [touches, htouch]

/-! ### Sessions and ids -/

variable (settings) in
/-- The calls of an alarm request. -/
def AlarmRequest.Calls : AlarmRequest → Op rt → Prop
  | .create payload key traceId, op => (Request.createSession payload key traceId).Calls settings op
  | .fail sessionId, op => op = .updateSession sessionId { phase := some .failed }

/-- A session stays, and stays failed. -/
theorem session_persists (hcalls : r.Calls settings op)
    (hexec : exec settings op x d.store = some (a, e.store)) {id : String} {row : SessionRow}
    (hrow : d.store.session id = some row) :
    ∃ row', e.store.session id = some row' ∧ (row.phase = .failed → row'.phase = .failed) := by
  by_cases hwrites : op.writes = some .sessions
  · cases op with
    | createSession values =>
        obtain ⟨-, -, hsessions, -⟩ := exec_createSession hexec
        exact ⟨row, session_append hsessions hrow, fun h => h⟩
    | updateSession id' update =>
        have hsession := session_update (exec_updateSession hexec).2 id
        rw [hrow] at hsession
        cases r with
        | create => simp [AlarmRequest.Calls, Request.Calls] at hcalls
        | fail sessionId =>
            cases hcalls
            refine ⟨_, hsession, fun hfailed => ?_⟩
            split
            · rfl
            · exact hfailed
    | _ => cases hwrites
  · refine ⟨row, ?_, fun h => h⟩
    unfold Store.session at hrow ⊢
    rw [(exec_frame hexec).sessions hwrites]
    exact hrow

theorem failed_persists (hcalls : r.Calls settings op)
    (hexec : exec settings op x d.store = some (a, e.store)) (id : String)
    (h : Failed d.store id) : Failed e.store id := by
  obtain ⟨row, hrow, hphase⟩ := h
  obtain ⟨row', hrow', hkeeps⟩ := session_persists hcalls hexec hrow
  exact ⟨row', hrow', hkeeps hphase⟩

/-- A request creates one session, stores the run it drew for it, and registers it. -/
structure OwnIds (i : Nat) (op : Op rt) (d : AlarmConfig settings rt) : Prop where
  createSession : ∀ values, op = .createSession values →
    (∀ s r, (values s r).id = s) ∧ ∀ e ∈ own i d.history, createdIds e = none
  createRun : ∀ values, op = .createRun values → ∃ e ∈ own i d.history, ∃ ids,
    createdIds e = some ids ∧ ∀ id, (values id).id = ids.2 ∧ (values id).sessionId = ids.1
  register : ∀ key sessionId found, op = .register key sessionId found →
    ∃ e ∈ own i d.history, ∃ runId, createdIds e = some (sessionId, runId)

/-- What the drawing of ids means for the store. -/
theorem created_fresh {ids : String × String}
    (hexec : exec settings op x d.store = some (a, e.store))
    (h : createdIds (⟨i, r, op, a⟩ : AlarmEvent settings rt) = some ids) :
    ids.1 ∉ d.store.drawn ∧ ids.2 ∉ d.store.drawn ∧ ids.1 ∈ e.store.drawn ∧
      ids.2 ∈ e.store.drawn ∧ ∃ values, op = .createSession values ∧
        e.store.sessions = d.store.sessions ++ [values ids.1 ids.2] := by
  cases op with
  | createSession values =>
      cases h
      obtain ⟨hsession, hrun, hsessions, hdrawn⟩ := exec_createSession hexec
      refine ⟨hsession, hrun, ?_, ?_, values, rfl, hsessions⟩ <;> simp [hdrawn]
  | _ => cases h

/-- The registration that a call makes is its own. -/
theorem touch_registered {j now : Nat} {sessionId : String}
    (h : touch key (⟨i, r, op, a⟩ : AlarmEvent settings rt) = some (.registered j sessionId now)) :
    j = i ∧ ∃ found, op = .register key sessionId found := by
  cases op with
  | register k s found =>
      cases a with
      | none => cases h
      | some now' =>
          simp only [touch, Option.ite_none_right_eq_some, Option.some.injEq,
            Touch.registered.injEq] at h
          obtain ⟨rfl, rfl, rfl, rfl⟩ := h
          exact ⟨rfl, found, rfl⟩
  | hit k =>
      obtain ⟨found, now'⟩ := a
      cases found <;> simp [touch] at h
  | _ => cases h

theorem mem_exec_history {ev : AlarmEvent settings rt} (hexec : d.exec i r op x = some (a, e))
    (hev : ev ∈ e.history) : ev ∈ d.history ∨ ev = ⟨i, r, op, a⟩ := by
  rw [(Config.exec_eq_some hexec).2] at hev
  exact (List.mem_append.mp hev).imp_right List.mem_singleton.mp

/-- A call of a request keeps the ids apart. -/
theorem IdsInvariant.exec (h : IdsInvariant d) (hcalls : r.Calls settings op)
    (hown : OwnIds i op d) (hexec : d.exec i r op x = some (a, e)) : IdsInvariant e := by
  have hstore := (Config.exec_eq_some hexec).1
  have hframe := exec_frame hstore
  constructor
  case drawn =>
    intro ev hev ids hids
    rcases mem_exec_history hexec hev with hold | rfl
    · obtain ⟨hs, hr⟩ := h.drawn ev hold ids hids
      exact ⟨hframe.drawn _ hs, hframe.drawn _ hr⟩
    · obtain ⟨-, -, hs, hr, -⟩ := created_fresh hstore hids
      exact ⟨hs, hr⟩
  case distinct =>
    -- a new session shares neither an id nor the request with an old one
    have hnew : ∀ ev ∈ d.history, ∀ ids ids', createdIds ev = some ids →
        createdIds (⟨i, r, op, a⟩ : AlarmEvent settings rt) = some ids' →
        ¬ (ids.1 = ids'.1 ∨ ids.2 = ids'.2 ∨ ev.task = i) := by
      intro ev hev ids ids' hids hids'
      obtain ⟨hs, hr, -, -, values, hop, -⟩ := created_fresh hstore hids'
      obtain ⟨hs', hr'⟩ := h.drawn ev hev ids hids
      rintro (heq | heq | htask)
      · exact hs (heq ▸ hs')
      · exact hr (heq ▸ hr')
      · have hmem : ev ∈ own i d.history := List.mem_filter.mpr ⟨hev, by simpa using htask⟩
        rw [(hown.createSession values hop).2 ev hmem] at hids
        cases hids
    intro e₁ h₁ e₂ h₂ ids ids' hids hids' hsame
    rcases mem_exec_history hexec h₁ with h₁ | rfl <;>
      rcases mem_exec_history hexec h₂ with h₂ | rfl
    · exact h.distinct e₁ h₁ e₂ h₂ ids ids' hids hids' hsame
    · exact absurd hsame (hnew e₁ h₁ ids ids' hids hids')
    · refine absurd ?_ (hnew e₂ h₂ ids' ids hids' hids)
      exact hsame.imp Eq.symm (Or.imp Eq.symm Eq.symm)
    · rfl
  case sessions =>
    intro ev hev ids hids
    rcases mem_exec_history hexec hev with hold | rfl
    · obtain ⟨row, hrow⟩ := Option.isSome_iff_exists.mp (h.sessions ev hold ids hids)
      obtain ⟨row', hrow', -⟩ := session_persists hcalls hstore hrow
      simp [hrow']
    · obtain ⟨-, -, -, -, values, hop, hsessions⟩ := created_fresh hstore hids
      have hid := (hown.createSession values hop).1 ids.1 ids.2
      simp [Store.session, Table.get, hsessions, hid]
  case runs =>
    intro row hrow
    have hkept : ∀ old ∈ d.store.runs, old.Same row → ∃ ev ∈ e.history,
        createdIds ev = some (row.sessionId, row.id) ∧
        ∃ ev' ∈ e.history, ev'.task = ev.task ∧ ∃ values, ev'.op = .createRun values := by
      intro old hold hsame
      obtain ⟨ev, hev, hids, ev', hev', hmade⟩ := h.runs old hold
      refine ⟨ev, Config.exec_mem hexec hev, ?_, ev', Config.exec_mem hexec hev', hmade⟩
      rw [hsame.sessionId, hsame.id]
      exact hids
    by_cases hop : ∃ values, op = .createRun values
    · obtain ⟨values, rfl⟩ := hop
      rcases exec_createRun hstore with ⟨-, hruns⟩ | ⟨ha, hruns⟩
      · exact hkept row (hruns ▸ hrow) (.refl row)
      rcases List.mem_append.mp (hruns ▸ hrow) with hold | hlast
      · exact hkept row hold (.refl row)
      obtain ⟨ev, hev, ids, hids, hvalues⟩ := hown.createRun values rfl
      rw [List.mem_singleton] at hlast
      subst hlast
      have hmem : ev ∈ d.history := List.mem_of_mem_filter hev
      have htask : ev.task = i := by simpa using (List.mem_filter.mp hev).2
      refine ⟨ev, Config.exec_mem hexec hmem, ?_, _, Config.exec_made hexec, htask.symm, values,
        rfl⟩
      simp [hids, hvalues]
    · obtain ⟨old, hold, hsame⟩ := exec_runs hstore (fun values heq => hop ⟨values, heq⟩) row hrow
      exact hkept old hold hsame
  case registered =>
    intro key j sessionId now hreg
    rw [touches_exec hexec, List.mem_append, Option.mem_toList] at hreg
    rcases hreg with hold | hnew
    · obtain ⟨ev, hev, htask, hids⟩ := h.registered key j sessionId now hold
      exact ⟨ev, Config.exec_mem hexec hev, htask, hids⟩
    · obtain ⟨rfl, found, hop⟩ := touch_registered hnew
      obtain ⟨ev, hev, hids⟩ := hown.register key sessionId found hop
      exact ⟨ev, Config.exec_mem hexec (List.mem_of_mem_filter hev),
        by simpa using (List.mem_filter.mp hev).2, hids⟩

/-! ### The ledger -/

/-- What `hit` finds, and what it writes. -/
theorem hit_cases (window : Nat) (key : String) (now : Nat) (s : Store) :
    ((hit window key now s).1 = none ∧ (hit window key now s).2 = s ∧
      ∀ row ∈ s.dedupRow key, row.expiresAt ≤ now ∨ s.session row.sessionId = none ∨
        Failed s row.sessionId) ∨
    ∃ row, s.dedupRow key = some row ∧ (s.session row.sessionId).isSome ∧
      (hit window key now s).1 = some ⟨row.sessionId, row.hitCount + 1⟩ ∧
      (hit window key now s).2.dedup = Table.update DedupRow.dedupKey s.dedup key fun r =>
        { r with expiresAt := now + window, hitCount := r.hitCount + 1 } := by
  unfold hit
  cases hrow : s.dedupRow key with
  | none => exact Or.inl ⟨rfl, rfl, nofun⟩
  | some row =>
      by_cases hexpired : row.expiresAt ≤ now
      · refine Or.inl ?_
        simp [hexpired]
      · cases hsession : s.session row.sessionId with
        | none =>
            refine Or.inl ?_
            simp [hexpired, hsession]
        | some session =>
            by_cases hfailed : session.phase = .failed
            · refine Or.inl ?_
              simp [hexpired, hsession, hfailed, Failed]
            · refine Or.inr ⟨row, rfl, ?_⟩
              simp [hexpired, hsession, hfailed]

/-- A `register` whose read still holds writes the row. -/
theorem register_writes (window now : Nat) (sessionId : String) {found : Bool} {s : Store}
    (hfound : found = (s.dedupRow key).isSome) :
    (register window key sessionId found now s).1 = some now ∧
      ((register window key sessionId found now s).2.dedup =
          Table.update DedupRow.dedupKey s.dedup key (fun _ => ⟨key, sessionId, now + window, 1⟩) ∧
          (s.dedupRow key).isSome ∨
        (register window key sessionId found now s).2.dedup =
          s.dedup ++ [⟨key, sessionId, now + window, 1⟩] ∧ s.dedupRow key = none) := by
  subst hfound
  unfold register
  cases hrow : s.dedupRow key with
  | some row => simp
  | none =>
      have hget : Table.get DedupRow.dedupKey s.dedup key = none := hrow
      simp [Table.insert?, hget]

/-- What a request has seen to before it makes the call. -/
structure Ready (i : Nat) (op : Op rt) (d : AlarmConfig settings rt) : Prop
    extends OwnIds i op d where
  looks : ∀ key, op = .hit key → ∀ e ∈ own i d.history, ∀ k, touch k e = none
  registers : ∀ key sessionId found, op = .register key sessionId found →
    Waiting key i d.history ∧ found = (d.store.dedupRow key).isSome ∧
      ∀ k s, countedCalls k s (own i d.history) = 0

/-- The sessions that stand in the ledger exist. -/
theorem DedupInvariant.session_of_row (h : DedupInvariant d) {row : DedupRow}
    (hrow : d.store.dedupRow key = some row) : (d.store.session row.sessionId).isSome := by
  obtain ⟨clock, openCall, -, hledger⟩ := h.ledger key
  obtain ⟨j, t, hreg⟩ := hledger.registered_of_counts.1
    ⟨row.sessionId, row.expiresAt, row.hitCount⟩ (by simp [rowOf, hrow]) rfl
  obtain ⟨ev, hev, -, runId, hids⟩ := h.ids.registered key j _ t hreg
  exact h.ids.sessions ev hev _ hids

/-- A lookup that the guard allows finds nobody waiting. -/
theorem DedupInvariant.nobody_waits (h : DedupInvariant d) (hmay : ∀ j, ¬ Waiting key j d.history) :
    ∃ clock, clock ≤ d.store.clock ∧
      Ledger settings.window (Failed d.store) (touches key d.history) clock none
        (rowOf d.store key) := by
  obtain ⟨clock, openCall, hclock, hledger⟩ := h.ledger key
  cases openCall with
  | none => exact ⟨clock, hclock, hledger⟩
  | some j =>
      refine absurd ⟨?_, ?_⟩ (hmay j)
      · exact hledger.missed_of_registered (Or.inl rfl)
      · exact fun s t => hledger.open_not_registered rfl s t

theorem touch_eq_none (h : op.writes ≠ some .dedup) :
    touch key (⟨i, r, op, a⟩ : AlarmEvent settings rt) = none := by
  cases op with
  | hit | register => exact absurd rfl h
  | _ => rfl

/-- The ledger so far, after a call. -/
theorem ledger_carried (hcalls : r.Calls settings op) (hexec : d.exec i r op x = some (a, e))
    {clock : Nat} {openCall : Option Nat} {row : Option LedgerRow} (hclock : clock ≤ d.store.clock)
    (h : Ledger settings.window (Failed d.store) (touches key d.history) clock openCall row) :
    clock ≤ x.now ∧ e.store.clock = x.now ∧
      Ledger settings.window (Failed e.store) (touches key d.history) clock openCall row := by
  have hstore := (Config.exec_eq_some hexec).1
  obtain ⟨hnow, hafter⟩ := (exec_frame hstore).clock
  exact ⟨Nat.le_trans hclock hnow, hafter, h.mono (failed_persists hcalls hstore)⟩

/-- A call that does not touch the alarm. -/
theorem DedupInvariant.ledger_quiet (h : DedupInvariant d) (hcalls : r.Calls settings op)
    (hexec : d.exec i r op x = some (a, e))
    (htouch : touch key (⟨i, r, op, a⟩ : AlarmEvent settings rt) = none)
    (hrow : e.store.dedupRow key = d.store.dedupRow key) :
    LedgerAt key e ∧ touches key e.history = touches key d.history := by
  obtain ⟨clock, openCall, hclock, hledger⟩ := h.ledger key
  obtain ⟨hnow, hafter, hledger⟩ := ledger_carried hcalls hexec hclock hledger
  have hsame : touches key e.history = touches key d.history := by
    rw [touches_exec hexec, htouch]
    exact List.append_nil _
  refine ⟨⟨clock, openCall, hafter ▸ hnow, ?_⟩, hsame⟩
  rw [hsame, rowOf, hrow]
  exact hledger

/-- What a call has missed it has missed itself. -/
theorem task_of_missed {ev : AlarmEvent settings rt} {j time : Nat}
    (h : touch key ev = some (.missed j time)) : ev.task = j := by
  obtain ⟨task, request, op, a⟩ := ev
  cases op with
  | hit k =>
      obtain ⟨found, now⟩ := a
      cases found with
      | none =>
          simp only [touch, Option.ite_none_right_eq_some, Option.some.injEq,
            Touch.missed.injEq] at h
          exact h.2.1
      | some hit => simp [touch] at h
  | register k s found => cases a <;> simp [touch] at h
  | _ => cases h

/-- Likewise for what it has registered. -/
theorem task_of_registered {ev : AlarmEvent settings rt} {j now : Nat} {sessionId : String}
    (h : touch key ev = some (.registered j sessionId now)) : ev.task = j :=
  (touch_registered h).1.symm

/-- The dedup row of an alarm after an update. -/
theorem dedupRow_update {s t : Store} {f : DedupRow → DedupRow}
    (h : t.dedup = Table.update DedupRow.dedupKey s.dedup key f)
    (hf : ∀ row, row.dedupKey = key → (f row).dedupKey = key) (key' : String) :
    t.dedupRow key' = if key' = key then (s.dedupRow key).map f else s.dedupRow key' := by
  unfold Store.dedupRow
  rw [h]
  split
  · next heq =>
      rw [heq]
      exact Table.get_update_self hf
  · next hne => exact Table.get_update_ne hf hne

theorem dedup_keys_update {s t : Store} {f : DedupRow → DedupRow}
    (h : t.dedup = Table.update DedupRow.dedupKey s.dedup key f)
    (hf : ∀ row, row.dedupKey = key → (f row).dedupKey = key)
    (hkeys : (s.dedup.map DedupRow.dedupKey).Nodup) : (t.dedup.map DedupRow.dedupKey).Nodup := by
  rw [h, Table.map_key_update hf]
  exact hkeys

/-- A lookup of the alarm that the guard allows. -/
theorem DedupInvariant.ledger_hit (h : DedupInvariant d) {a : Option AlarmDedupHit × Nat}
    (hcalls : r.Calls settings (.hit key : Op rt)) (hmay : ∀ j, ¬ Waiting key j d.history)
    (hfresh : ∀ ev ∈ own i d.history, touch key ev = none)
    (hexec : d.exec i r (.hit key) x = some (a, e)) : LedgerAt key e := by
  obtain ⟨clock, openCall, hclock, hledger⟩ := h.ledger key
  obtain rfl : openCall = none := by
    cases openCall with
    | none => rfl
    | some j =>
        exact absurd ⟨hledger.missed_of_registered (Or.inl rfl),
          fun s t => hledger.open_not_registered rfl s t⟩ (hmay j)
  obtain ⟨hnow, hafter, hledger⟩ := ledger_carried hcalls hexec hclock hledger
  obtain ⟨rfl, hstored⟩ := exec_hit (Config.exec_eq_some hexec).1
  refine ⟨x.now, ?_⟩
  rcases hit_cases settings.window key x.now { d.store with clock := x.now } with
    ⟨hmiss, hsame, hclosed⟩ | ⟨row, hrow, -, hcount, hdedup⟩
  · refine ⟨some i, hafter.ge, ?_⟩
    have htouches : touches key e.history = touches key d.history ++ [.missed i x.now] := by
      rw [touches_exec hexec, hmiss]
      simp [touch]
    have hrow : rowOf e.store key = rowOf d.store key := by
      rw [hstored, hsame]
      rfl
    rw [htouches, hrow]
    refine hledger.miss hnow ?_ ?_
    · intro time hmissed
      obtain ⟨ev, hev, htouch⟩ := List.mem_filterMap.mp hmissed
      have hown : ev ∈ own i d.history :=
        List.mem_filter.mpr ⟨hev, by simpa using task_of_missed htouch⟩
      rw [hfresh ev hown] at htouch
      cases htouch
    · intro row hrow
      obtain ⟨row, hstoredRow, rfl⟩ := Option.map_eq_some_iff.mp hrow
      rcases hclosed row hstoredRow with hexpired | hnone | hfailed
      · exact Or.inr hexpired
      · have hsome := h.session_of_row hstoredRow
        have hnone : d.store.session row.sessionId = none := hnone
        rw [hnone] at hsome
        cases hsome
      · rw [hstored, hsame]
        exact Or.inl hfailed
  · refine ⟨none, hafter.ge, ?_⟩
    have htouches :
        touches key e.history = touches key d.history ++ [.counted row.sessionId x.now] := by
      rw [touches_exec hexec, hcount]
      simp [touch]
    have hrowd : rowOf d.store key = some ⟨row.sessionId, row.expiresAt, row.hitCount⟩ := by
      have hrow : d.store.dedupRow key = some row := hrow
      simp [rowOf, hrow]
    have hrowe : rowOf e.store key =
        some ⟨row.sessionId, x.now + settings.window, row.hitCount + 1⟩ := by
      have hrow : d.store.dedupRow key = some row := hrow
      rw [← hstored] at hdedup
      rw [rowOf, dedupRow_update (s := d.store) hdedup fun _ hkey => hkey]
      simp [hrow]
    rw [htouches, hrowe]
    exact (hrowd ▸ hledger).count hnow

/-- A registration by the request that has missed the alarm. -/
theorem DedupInvariant.ledger_register (h : DedupInvariant d) {a : Option Nat} {sessionId : String}
    {found : Bool} (hcalls : r.Calls settings (.register key sessionId found : Op rt))
    (hready : Ready i (.register key sessionId found : Op rt) d)
    (hexec : d.exec i r (.register key sessionId found) x = some (a, e)) :
    LedgerAt key e ∧ a = some x.now := by
  obtain ⟨hwait, hfound, -⟩ := hready.registers key sessionId found rfl
  obtain ⟨clock, openCall, hclock, hledger⟩ := h.ledger key
  obtain rfl := open_of_waiting hledger hwait
  obtain ⟨hnow, hafter, hledger⟩ := ledger_carried hcalls hexec hclock hledger
  obtain ⟨ha, hstored⟩ := exec_register (Config.exec_eq_some hexec).1
  obtain ⟨hanswer, hwrites⟩ := register_writes settings.window x.now sessionId
    (s := { d.store with clock := x.now }) hfound
  rw [hanswer] at ha
  subst ha
  rw [← hstored] at hwrites
  refine ⟨⟨x.now, none, hafter.ge, ?_⟩, rfl⟩
  have htouches : touches key e.history =
      touches key d.history ++ [.registered i sessionId x.now] := by
    rw [touches_exec hexec]
    simp [touch]
  have hrow : rowOf e.store key = some ⟨sessionId, x.now + settings.window, 1⟩ := by
    rcases hwrites with ⟨hdedup, hsome⟩ | ⟨hdedup, hnone⟩
    · obtain ⟨row, hrow⟩ := Option.isSome_iff_exists.mp hsome
      have hrow : d.store.dedupRow key = some row := hrow
      rw [rowOf, dedupRow_update (s := d.store) hdedup fun _ _ => rfl]
      simp [hrow]
    · have hnone : Table.get DedupRow.dedupKey d.store.dedup key = none := hnone
      have hget := Table.get_append_self
        (r := (⟨key, sessionId, x.now + settings.window, 1⟩ : DedupRow)) hnone
      simp only [rowOf, Store.dedupRow, hdedup]
      exact congrArg _ hget
  rw [htouches, hrow]
  refine hledger.register hnow fun j t hreg => ?_
  -- a session is registered by the request that has created it
  obtain ⟨ev, hev, htask, runId, hids⟩ := h.ids.registered key j sessionId t hreg
  obtain ⟨ev', hev', runId', hids'⟩ := hready.register key sessionId found rfl
  obtain rfl := h.ids.distinct ev hev ev' (List.mem_of_mem_filter hev') _ _ hids hids' (Or.inl rfl)
  have htask' : ev.task = i := by simpa using (List.mem_filter.mp hev').2
  exact hwait.2 sessionId t (htask' ▸ htask ▸ hreg)

/-- A call touches the alarm whose key it names. -/
theorem touch_ne {ev : Touch} (h : touch key (⟨i, r, op, a⟩ : AlarmEvent settings rt) = some ev) :
    op = .hit key ∨ ∃ sessionId found, op = .register key sessionId found := by
  cases op with
  | hit k =>
      obtain ⟨found, now⟩ := a
      refine Or.inl ?_
      cases found <;>
      · simp only [touch, Option.ite_none_right_eq_some] at h
        rw [h.1]
  | register k sessionId found =>
      cases a with
      | none => cases h
      | some now =>
          simp only [touch, Option.ite_none_right_eq_some] at h
          exact Or.inr ⟨sessionId, found, by rw [h.1]⟩
  | _ => cases h

/-- The dedup row of another alarm. -/
theorem dedupRow_frame (hexec : exec settings op x d.store = some (a, e.store))
    (hready : Ready i op d) (hhit : op ≠ .hit key)
    (hregister : ∀ sessionId found, op ≠ .register key sessionId found) :
    e.store.dedupRow key = d.store.dedupRow key := by
  cases op with
  | hit k =>
      have hne : key ≠ k := fun heq => hhit (heq ▸ rfl)
      obtain ⟨-, hstored⟩ := exec_hit hexec
      rcases hit_cases settings.window k x.now { d.store with clock := x.now } with
        ⟨-, hsame, -⟩ | ⟨row, -, -, -, hdedup⟩
      · rw [hstored, hsame]
        rfl
      · rw [← hstored] at hdedup
        rw [dedupRow_update (s := d.store) hdedup fun _ hkey => hkey, if_neg hne]
  | register k sessionId found =>
      have hne : key ≠ k := fun heq => hregister sessionId found (heq ▸ rfl)
      obtain ⟨-, hstored⟩ := exec_register hexec
      obtain ⟨-, hfound, -⟩ := hready.registers k sessionId found rfl
      obtain ⟨-, hwrites⟩ := register_writes settings.window x.now sessionId
        (s := { d.store with clock := x.now }) hfound
      rw [← hstored] at hwrites
      rcases hwrites with ⟨hdedup, -⟩ | ⟨hdedup, -⟩
      · rw [dedupRow_update (s := d.store) hdedup fun _ _ => rfl, if_neg hne]
      · unfold Store.dedupRow
        rw [hdedup]
        exact Table.get_append_ne (Ne.symm hne)
  | _ =>
      unfold Store.dedupRow
      rw [(exec_frame hexec).dedup (by simp [Op.writes])]

/-- The ledger of every alarm after a call, and what the others see of it. -/
theorem DedupInvariant.alarm_step (h : DedupInvariant d) (hcalls : r.Calls settings op)
    (hready : Ready i op d) (hmay : MayLook op d) (hexec : d.exec i r op x = some (a, e))
    (key : String) :
    LedgerAt key e ∧
      ((touches key e.history = touches key d.history ∧
        e.store.dedupRow key = d.store.dedupRow key) ∨
      Waiting key i d.history ∨ ∀ j, ¬ Waiting key j d.history) := by
  by_cases hhit : op = .hit key
  · subst hhit
    have hnobody := hmay key rfl
    have hfresh := hready.looks key rfl
    exact ⟨h.ledger_hit hcalls hnobody (fun ev hev => hfresh ev hev key) hexec,
      Or.inr (Or.inr hnobody)⟩
  by_cases hregister : ∃ sessionId found, op = .register key sessionId found
  · obtain ⟨sessionId, found, rfl⟩ := hregister
    exact ⟨(h.ledger_register hcalls hready hexec).1,
      Or.inr (Or.inl (hready.registers key sessionId found rfl).1)⟩
  · have htouch : touch key (⟨i, r, op, a⟩ : AlarmEvent settings rt) = none := by
      cases hsome : touch key (⟨i, r, op, a⟩ : AlarmEvent settings rt) with
      | none => rfl
      | some ev => exact absurd (touch_ne hsome) (not_or.mpr ⟨hhit, hregister⟩)
    have hrow : e.store.dedupRow key = d.store.dedupRow key :=
      dedupRow_frame (Config.exec_eq_some hexec).1 hready hhit
        fun sessionId found heq => hregister ⟨sessionId, found, heq⟩
    obtain ⟨hledger, hsame⟩ := h.ledger_quiet hcalls hexec htouch hrow
    exact ⟨hledger, Or.inl ⟨hsame, hrow⟩⟩

/-- An alarm has one row. -/
theorem DedupInvariant.keys_step (h : DedupInvariant d) (hready : Ready i op d)
    (hexec : exec settings op x d.store = some (a, e.store)) :
    (e.store.dedup.map DedupRow.dedupKey).Nodup := by
  cases op with
  | hit k =>
      obtain ⟨-, hstored⟩ := exec_hit hexec
      rcases hit_cases settings.window k x.now { d.store with clock := x.now } with
        ⟨-, hsame, -⟩ | ⟨row, -, -, -, hdedup⟩
      · rw [hstored, hsame]
        exact h.keys
      · rw [← hstored] at hdedup
        exact dedup_keys_update (s := d.store) hdedup (fun _ hkey => hkey) h.keys
  | register k sessionId found =>
      obtain ⟨-, hstored⟩ := exec_register hexec
      obtain ⟨-, hfound, -⟩ := hready.registers k sessionId found rfl
      obtain ⟨-, hwrites⟩ := register_writes settings.window x.now sessionId
        (s := { d.store with clock := x.now }) hfound
      rw [← hstored] at hwrites
      rcases hwrites with ⟨hdedup, -⟩ | ⟨hdedup, hnone⟩
      · exact dedup_keys_update (s := d.store) hdedup (fun _ _ => rfl) h.keys
      · rw [hdedup]
        exact Table.nodup_append h.keys hnone
  | _ =>
      rw [(exec_frame hexec).dedup (by simp [Op.writes])]
      exact h.keys

theorem countedCalls_concat {l : List (AlarmEvent settings rt)} {ev : AlarmEvent settings rt}
    {sessionId : String} : countedCalls key sessionId (l ++ [ev]) =
      countedCalls key sessionId l +
        (touch key ev).toList.countP fun t => (t.countsFor sessionId).isSome := by
  unfold countedCalls touches
  rw [List.filterMap_append, List.countP_append]
  rfl

/-- Who has not touched an alarm has not counted it. -/
theorem countedCalls_eq_zero {l : List (AlarmEvent settings rt)} {sessionId : String}
    (h : ∀ ev ∈ l, touch key ev = none) : countedCalls key sessionId l = 0 := by
  have hnil : touches key l = [] := List.filterMap_eq_nil_iff.mpr h
  simp [countedCalls, hnil]

/-- A request counts an alarm once. -/
theorem DedupInvariant.once_step (h : DedupInvariant d) (hready : Ready i op d)
    (hexec : d.exec i r op x = some (a, e)) (j : Nat) (key sessionId : String) :
    countedCalls key sessionId (own j e.history) ≤ 1 := by
  by_cases hj : j = i
  · subst hj
    rw [Config.exec_own hexec, countedCalls_concat]
    cases htouch : touch key (⟨j, r, op, a⟩ : AlarmEvent settings rt) with
    | none =>
        have hbefore := h.once j key sessionId
        simpa using hbefore
    | some ev =>
        have hzero : countedCalls key sessionId (own j d.history) = 0 := by
          rcases touch_ne htouch with rfl | ⟨s, found, rfl⟩
          · exact countedCalls_eq_zero fun ev hev => hready.looks key rfl ev hev key
          · exact (hready.registers key s found rfl).2.2 key sessionId
        rw [hzero, Nat.zero_add]
        exact List.countP_le_length
  · rw [(Config.exec_others hexec hj).own_eq]
    exact h.once j key sessionId

/-- **What a call keeps, and what the others see of it.** -/
theorem DedupInvariant.exec (h : DedupInvariant d) (hcalls : r.Calls settings op)
    (hready : Ready i op d) (hmay : MayLook op d) (hexec : d.exec i r op x = some (a, e)) :
    DedupInvariant e ∧ Guarantee i d e := by
  have hstore := (Config.exec_eq_some hexec).1
  have halarms := h.alarm_step hcalls hready hmay hexec
  refine ⟨⟨?_, ?_, ?_, ?_⟩, ⟨?_, ?_⟩⟩
  · exact h.ids.exec hcalls hready.toOwnIds hexec
  · exact h.keys_step hready hstore
  · exact fun key => (halarms key).1
  · exact h.once_step hready hexec
  · intro s hs
    obtain ⟨row, hrow⟩ := Option.isSome_iff_exists.mp hs
    obtain ⟨row', hrow', -⟩ := session_persists hcalls hstore hrow
    simp [hrow']
  · exact fun key => (halarms key).2

end steps

/-- The promises of the requests to one another. -/
def alarmDiscipline (settings : DedupSettings) (rt : Runtime) :
    Discipline (backend settings rt) AlarmRequest where
  keeps := DedupInvariant
  guar := Guarantee
  rely i _ := Undisturbed i
  may _ op c := MayLook op c
  refl _ _ _ := .refl
  trans _ _ _ _ _ h h' := h.trans h'

/-! ## The requests -/

section safe

variable {c d : AlarmConfig settings rt} {i : Nat} {r : AlarmRequest} {α : Type}
  {l : List (AlarmEvent settings rt)}

/-- What is known after a call of request `i`, which had made the calls `l` before. -/
structure Called (i : Nat) (r : AlarmRequest) (op : Op rt) (a : Ans rt op)
    (l : List (AlarmEvent settings rt)) (d : AlarmConfig settings rt) : Prop where
  keeps : DedupInvariant d
  own : own i d.history = l ++ [⟨i, r, op, a⟩]

/-- One call of a request: what it needs, the state it is made in, and what is known after it. -/
theorem safe_alarm_call {op : Op rt} {f : Ans rt op → Call settings rt α}
    {post : Except ExecutionError α → AlarmConfig settings rt → Prop}
    (hown : own i c.history = l) (hcalls : r.Calls settings op)
    (hready : ∀ d, Undisturbed i c d → own i d.history = l → Ready i op d)
    (h : ∀ d x a e, Undisturbed i c d → DedupInvariant d → own i d.history = l →
      d.exec i r op x = some (a, e) → Called i r op a l e →
      (f a).Safe (alarmDiscipline settings rt) i r post e) :
    (ask op >>= f).Safe (alarmDiscipline settings rt) i r post c := by
  intro d x a e hrely hk hmay hexec
  have hown' : own i d.history = l := hrely.others.own_eq.trans hown
  obtain ⟨hkeeps, hguar⟩ := hk.exec hcalls (hready d hrely hown') hmay hexec
  refine ⟨hkeeps, hguar, h d x a e hrely hk hown' hexec ⟨hkeeps, ?_⟩⟩
  rw [Config.exec_own hexec, hown']

/-- A call that neither touches an alarm nor stores ids. -/
theorem ready_of_plain {op : Op rt} (h : op.writes ≠ some .dedup)
    (hsession : ∀ values, op ≠ .createSession values) (hrun : ∀ values, op ≠ .createRun values) :
    Ready i op d where
  createSession values heq := absurd heq (hsession values)
  createRun values heq := absurd heq (hrun values)
  register _ _ _ heq := absurd rfl (heq ▸ h)
  looks _ heq := absurd rfl (heq ▸ h)
  registers _ _ _ heq := absurd rfl (heq ▸ h)

theorem ready_of_read {op : Op rt} (h : op.writes = none) : Ready i op d := by
  refine ready_of_plain (by simp [h]) ?_ ?_
  all_goals
    rintro values rfl
    cases h

/-- A call by which nothing is created and no alarm is looked up. -/
structure Idle (ev : AlarmEvent settings rt) : Prop where
  ids : createdIds ev = none
  run : ∀ values, ev.op ≠ .createRun values
  look : ∀ key, ev.op ≠ .hit key
  touch : ∀ key, touch key ev = none

/-- How a creation ends. -/
def CreationEnds (i : Nat) :
    Except ExecutionError CreateSessionResponse → AlarmConfig settings rt → Prop
  | .ok a, c => ∀ key, (∃ e ∈ own i c.history, e.op = .hit key) →
      countedCalls key a.sessionId (own i c.history) = 1
  | .error _, c => ∀ e ∈ own i c.history, createdIds e = none ∧ ∀ key, touch key e = none

/-- A creation that has found no session to merge into: it has stored nothing yet, and waits for
its alarm if it has one. -/
structure Missed (payload : CreateSessionRequest) (i : Nat) (l : List (AlarmEvent settings rt)) :
    Prop where
  ids : ∀ e ∈ l, createdIds e = none
  run : ∀ e ∈ l, ∀ values, e.op ≠ .createRun values
  uncounted : ∀ key sessionId, countedCalls key sessionId l = 0
  look : ∀ e ∈ l, ∀ key, e.op = .hit key → dedupKeyOf settings payload = some key
  missed : ∀ key, dedupKeyOf settings payload = some key → ∃ time, .missed i time ∈ touches key l

/-- A request that has missed the alarm and has counted it for nobody waits for it. -/
theorem waiting_of_own {key : String} (hmissed : ∃ time, .missed i time ∈ touches key (own i d.history))
    (huncounted : ∀ sessionId, countedCalls key sessionId (own i d.history) = 0) :
    Waiting key i d.history := by
  constructor
  · obtain ⟨time, hmissed⟩ := hmissed
    obtain ⟨ev, hev, htouch⟩ := List.mem_filterMap.mp hmissed
    exact ⟨time, List.mem_filterMap.mpr ⟨ev, List.mem_of_mem_filter hev, htouch⟩⟩
  · intro sessionId now hreg
    obtain ⟨ev, hev, htouch⟩ := List.mem_filterMap.mp hreg
    have htask : ev.task = i := task_of_registered htouch
    have hown : Touch.registered i sessionId now ∈ touches key (own i d.history) :=
      List.mem_filterMap.mpr ⟨ev, List.mem_filter.mpr ⟨hev, by simpa using htask⟩, htouch⟩
    have hnone := List.countP_eq_zero.mp (huncounted sessionId) _ hown
    simp [Touch.countsFor] at hnone

/-- The run of a new session is not refused. -/
theorem run_accepted {payload : CreateSessionRequest} {key : Option String} {traceId : String}
    {ids : String × String} {x : CallInput rt} {a : Option String} {t : Store}
    (hk : DedupInvariant d)
    (hids : ∃ ev ∈ own i d.history, createdIds ev = some ids)
    (hrun : ∀ ev ∈ own i d.history, ∀ values, ev.op ≠ .createRun values)
    (hexec : exec settings (.createRun fun _ => initRun payload key traceId ids.1 ids.2) x d.store =
      some (a, t)) : a.isSome := by
  obtain ⟨ev, hev, hids⟩ := hids
  have hmem : ev ∈ d.history := List.mem_of_mem_filter hev
  have htask : ev.task = i := by simpa using (List.mem_filter.mp hev).2
  have hsession := hk.ids.sessions ev hmem ids hids
  -- a run with one of these ids would be the request's own
  have hother : ∀ row ∈ d.store.runs, row.id ≠ ids.2 ∧ row.sessionId ≠ ids.1 := by
    intro row hrow
    obtain ⟨ev₁, hev₁, hids₁, ev₂, hev₂, htask₂, values, hop⟩ := hk.ids.runs row hrow
    by_contra hsame
    have heq : ev₁ = ev := by
      refine hk.ids.distinct ev₁ hev₁ ev hmem _ _ hids₁ hids ?_
      by_cases hs : row.sessionId = ids.1
      · exact Or.inl hs
      · by_cases hr : row.id = ids.2
        · exact Or.inr (Or.inl hr)
        · exact absurd ⟨hr, hs⟩ hsame
    have hown : ev₂ ∈ own i d.history :=
      List.mem_filter.mpr ⟨hev₂, by simpa using htask₂.trans (heq ▸ htask)⟩
    exact hrun ev₂ hown values hop
  have h := (exec_eq_some hexec).2
  simp only [execNow] at h
  split at h
  · cases h
  · simp only [createRun] at h
    split at h
    · next hrefused =>
        rcases hrefused with hany | hnone
        · obtain ⟨row, hrow, hclash⟩ := List.any_eq_true.mp hany
          obtain ⟨hid, hsid⟩ := hother row hrow
          simp [initRun, hid, hsid] at hclash
        · have hnone : d.store.session ids.1 = none := by simpa [initRun, Store.session] using hnone
          rw [hnone] at hsession
          cases hsession
    · cases h
      rfl

section create

variable {payload : CreateSessionRequest} {key : Option String} {traceId : String}

theorem createdIds_plain {op : Op rt} {a : Ans rt op} (h : ∀ values, op ≠ .createSession values) :
    createdIds (⟨i, r, op, a⟩ : AlarmEvent settings rt) = none := by
  cases op with
  | createSession values => exact absurd rfl (h values)
  | _ => rfl

/-- The registration of the new session, and its end. -/
theorem safe_register {sessionId : String} {a : CreateSessionResponse}
    (ha : a.sessionId = sessionId) (hown : own i c.history = l)
    (hids : ∃ ev ∈ l, ∃ runId, createdIds ev = some (sessionId, runId))
    (huncounted : ∀ key sessionId, countedCalls key sessionId l = 0)
    (hlook : ∀ ev ∈ l, ∀ key, ev.op = .hit key → dedupKeyOf settings payload = some key)
    (hmissed : ∀ key, dedupKeyOf settings payload = some key →
      ∃ time, .missed i time ∈ touches key l) :
    (registerSession settings payload sessionId >>= fun _ => Proc.ret a).Safe
      (alarmDiscipline settings rt) i (.create payload key traceId) (CreationEnds i) c := by
  unfold registerSession
  cases hkey : dedupKeyOf settings payload with
  | none =>
      rintro d hrely _ k ⟨ev, hev, hop⟩
      rw [hrely.others.own_eq, hown] at hev
      have hsome := hlook ev hev k hop
      rw [hkey] at hsome
      cases hsome
  | some dedupKey =>
      refine safe_alarm_call hown trivial ?_ fun d x found c₁ hrely _ hownd hexec h₁ => ?_
      · exact fun d _ _ => ready_of_read rfl
      have hwait : Waiting dedupKey i c₁.history := by
        refine waiting_of_own ?_ fun s => ?_
        · rw [h₁.own, touches, List.filterMap_append]
          obtain ⟨time, hmiss⟩ := hmissed dedupKey hkey
          exact ⟨time, List.mem_append_left _ hmiss⟩
        · rw [h₁.own, countedCalls_concat, huncounted]
          rfl
      have hfound : found = (c₁.store.dedupRow dedupKey).isSome := by
        have hread := (exec_eq_some (Config.exec_eq_some hexec).1).2
        obtain ⟨rfl, hstore⟩ := Prod.mk.inj (Option.some.inj hread)
        rw [← hstore]
      have hcalls : (AlarmRequest.create payload key traceId).Calls settings
          (.register dedupKey sessionId found : Op rt) := ⟨payload, key, traceId, rfl, hkey⟩
      have hready : ∀ d', Undisturbed i c₁ d' → own i d'.history = own i c₁.history →
          Ready i (.register dedupKey sessionId found : Op rt) d' := by
        intro d' hrely' hown'
        obtain ⟨htouches, hrow⟩ := hrely'.alarms dedupKey hwait
        refine ⟨⟨nofun, nofun, ?_⟩, nofun, ?_⟩
        · intro k s f heq
          cases heq
          obtain ⟨ev, hev, hids⟩ := hids
          refine ⟨ev, ?_, hids⟩
          rw [hown', h₁.own]
          exact List.mem_append_left _ hev
        · intro k s f heq
          cases heq
          refine ⟨?_, hrow ▸ hfound, fun k s => ?_⟩
          · unfold Waiting
            rw [htouches]
            exact hwait
          · rw [hown', h₁.own, countedCalls_concat, huncounted]
            rfl
      refine safe_alarm_call rfl hcalls hready fun d' x' time c₂ hrely' hk' hown' hexec' h₂ => ?_
      have htime := (hk'.ledger_register hcalls (hready d' hrely' hown') hexec').2
      subst htime
      rintro e hrelye _ k ⟨ev, hev, hop⟩
      rw [hrelye.others.own_eq, h₂.own, h₁.own] at hev ⊢
      have hk : k = dedupKey := by
        rw [List.append_assoc, List.mem_append] at hev
        rcases hev with hold | hnew
        · exact Option.some.inj ((hlook ev hold k hop).symm.trans hkey)
        · simp only [List.cons_append, List.nil_append, List.mem_cons, List.not_mem_nil,
            or_false] at hnew
          rcases hnew with rfl | rfl <;> cases hop
      subst hk ha
      rw [countedCalls_concat, countedCalls_concat, huncounted]
      simp [touch, Touch.countsFor]

theorem safe_createFresh (hown : own i c.history = l) (h : @Missed settings rt payload i l) :
    (createFresh settings payload key traceId).Safe (alarmDiscipline settings rt) i
      (.create payload key traceId) (CreationEnds i) c := by
  refine safe_alarm_call hown ⟨payload, key, traceId, rfl, rfl⟩ ?_
    fun _ _ ids c₁ _ _ _ _ h₁ => ?_
  · intro d _ hownd
    refine ⟨⟨?_, nofun, nofun⟩, nofun, nofun⟩
    intro values heq
    cases heq
    exact ⟨fun _ _ => rfl, hownd ▸ h.ids⟩
  refine safe_alarm_call h₁.own (Or.inl ⟨payload, key, traceId, ids.1, ids.2, rfl, rfl⟩) ?_
    fun d₂ _ run c₂ _ hk₂ hown₂ hexec₂ h₂ => ?_
  · intro d _ hownd
    refine ⟨⟨nofun, ?_, nofun⟩, nofun, nofun⟩
    intro values heq
    cases heq
    refine ⟨_, hownd ▸ List.mem_append_right _ (List.mem_singleton_self _), ids, rfl, ?_⟩
    exact fun _ => ⟨rfl, rfl⟩
  have haccepted : run.isSome := by
    refine run_accepted hk₂ ⟨_, hown₂ ▸ List.mem_append_right _ (List.mem_singleton_self _), rfl⟩ ?_
      (Config.exec_eq_some hexec₂).1
    intro ev hev values
    rw [hown₂, List.mem_append] at hev
    rcases hev with hold | hlast
    · exact h.run ev hold values
    · rw [List.mem_singleton.mp hlast]
      nofun
  obtain ⟨run, rfl⟩ := Option.isSome_iff_exists.mp haccepted
  refine safe_alarm_call h₂.own (Or.inl ⟨payload, key, traceId, ids.1, ids.2, rfl, rfl⟩) ?_
    fun _ _ _ c₃ _ _ _ _ h₃ => ?_
  · exact fun d _ _ => ready_of_plain nofun nofun nofun
  refine safe_register rfl h₃.own ?_ ?_ ?_ ?_
  · refine ⟨⟨i, .create payload key traceId, .createSession _, ids⟩, ?_, ids.2, rfl⟩
    simp
  · intro k s
    rw [countedCalls_concat, countedCalls_concat, countedCalls_concat, h.uncounted]
    rfl
  · intro ev hev k hop
    simp only [List.append_assoc, List.mem_append, List.mem_singleton] at hev
    rcases hev with hold | rfl | rfl | rfl
    · exact h.look ev hold k hop
    all_goals cases hop
  · intro k hkey
    obtain ⟨time, hmiss⟩ := h.missed k hkey
    refine ⟨time, ?_⟩
    simp only [touches, List.append_assoc, List.filterMap_append]
    exact List.mem_append_left _ hmiss

theorem safe_createUnlessMerged (hown : own i c.history = l) (hidle : ∀ ev ∈ l, Idle ev) :
    (createUnlessMerged settings payload key traceId).Safe (alarmDiscipline settings rt) i
      (.create payload key traceId) (CreationEnds i) c := by
  have huncounted : ∀ key sessionId, countedCalls key sessionId l = 0 :=
    fun k s => countedCalls_eq_zero fun ev hev => (hidle ev hev).touch k
  unfold createUnlessMerged
  cases hkey : dedupKeyOf settings payload with
  | none =>
      refine safe_createFresh hown ⟨?_, ?_, huncounted, ?_, ?_⟩
      · exact fun ev hev => (hidle ev hev).ids
      · exact fun ev hev => (hidle ev hev).run
      · exact fun ev hev k hop => absurd hop ((hidle ev hev).look k)
      · simp [hkey]
  | some dedupKey =>
      refine safe_alarm_call hown ⟨payload, key, traceId, rfl, hkey⟩ ?_
        fun d₁ x found c₁ _ _ _ hexec h₁ => ?_
      · exact fun d _ hownd =>
          ⟨⟨by simp, by simp, by simp⟩, fun _ _ ev hev => (hidle ev (hownd ▸ hev)).touch, by simp⟩
      obtain ⟨found, time⟩ := found
      cases found with
      | none =>
          refine safe_createFresh h₁.own ⟨?_, ?_, ?_, ?_, ?_⟩
          · exact List.forall_mem_append.mpr
              ⟨fun ev hev => (hidle ev hev).ids, by simp [createdIds]⟩
          · exact List.forall_mem_append.mpr ⟨fun ev hev => (hidle ev hev).run, by simp⟩
          · intro k s
            rw [countedCalls_concat, huncounted]
            simp [touch, apply_ite, Touch.countsFor]
          · refine List.forall_mem_append.mpr
              ⟨fun ev hev k hop => absurd hop ((hidle ev hev).look k), ?_⟩
            simp [hkey]
          · intro k hk
            obtain rfl : dedupKey = k := Option.some.inj (hkey.symm.trans hk)
            refine ⟨time, ?_⟩
            simp [touches, touch]
      | some hit =>
          have hsession : (c₁.store.session hit.sessionId).isSome := by
            obtain ⟨hanswer, hstored⟩ := exec_hit (Config.exec_eq_some hexec).1
            have hfound := congrArg Prod.fst hanswer
            rcases hit_cases settings.window dedupKey x.now { d₁.store with clock := x.now } with
              ⟨hmiss, -, -⟩ | ⟨row, -, hsome, hcount, -⟩
            · rw [hmiss] at hfound
              cases hfound
            · rw [hcount] at hfound
              cases hfound
              rw [hstored, hit_frame]
              exact hsome
          refine safe_alarm_call h₁.own trivial ?_ fun d₂ x₂ existing c₂ hrely _ _ hexec₂ h₂ => ?_
          · exact fun d _ _ => ready_of_read rfl
          have hexisting : existing = d₂.store.session hit.sessionId :=
            (Prod.mk.inj (Option.some.inj (exec_eq_some (Config.exec_eq_some hexec₂).1).2)).1.symm
          have hsome := hrely.sessions hit.sessionId hsession
          rw [← hexisting] at hsome
          obtain ⟨existing, rfl⟩ := Option.isSome_iff_exists.mp hsome
          rintro e hrelye _ k ⟨ev, hev, hop⟩
          rw [hrelye.others.own_eq, h₂.own] at hev ⊢
          have hk : k = dedupKey := by
            simp only [List.append_assoc, List.mem_append, List.mem_singleton] at hev
            rcases hev with hold | rfl | rfl
            · exact absurd hop ((hidle ev hold).look k)
            · cases hop
              rfl
            · cases hop
          subst hk
          rw [countedCalls_concat, countedCalls_concat, huncounted]
          simp [touch, Touch.countsFor]

theorem safe_createSession (hunborn : ∀ ev ∈ c.history, ev.task ≠ i) :
    (createSession settings payload key traceId).Safe (alarmDiscipline settings rt) i
      (.create payload key traceId) (CreationEnds i) c := by
  have hown : own i c.history = [] := by simpa [own] using hunborn
  unfold createSession
  cases Text.truthy key with
  | none => exact safe_createUnlessMerged hown (by simp)
  | some k =>
      refine safe_alarm_call hown trivial ?_ fun d₁ x existing c₁ _ _ _ _ h₁ => ?_
      · exact fun d _ _ => ready_of_read rfl
      have hidle : Idle (⟨i, .create payload key traceId, .findIdempotentGlobal k, existing⟩ :
          AlarmEvent settings rt) := ⟨rfl, by simp, by simp, fun _ => rfl⟩
      cases existing with
      | none =>
          refine safe_createUnlessMerged h₁.own fun ev hev => ?_
          rw [List.mem_singleton.mp hev]
          exact hidle
      | some existing =>
          refine Proc.Safe.raiseIf (fun _ => ?_) fun _ => ?_
          · intro d hrely _ ev hev
            rw [hrely.others.own_eq, h₁.own] at hev
            rw [List.mem_singleton.mp hev]
            exact ⟨rfl, fun _ => rfl⟩
          · refine safe_alarm_call h₁.own trivial ?_ fun d₂ x session c₂ _ _ _ _ h₂ => ?_
            · exact fun d _ _ => ready_of_read rfl
            cases session with
            | none =>
                intro d hrely _ ev hev
                rw [hrely.others.own_eq, h₂.own] at hev
                simp only [List.nil_append, List.cons_append, List.mem_cons, List.not_mem_nil,
                  or_false] at hev
                rcases hev with rfl | rfl <;> exact ⟨rfl, fun _ => rfl⟩
            | some session =>
                rintro d hrely _ k' ⟨ev, hev, hop⟩
                rw [hrely.others.own_eq, h₂.own] at hev
                simp only [List.nil_append, List.cons_append, List.mem_cons, List.not_mem_nil,
                  or_false] at hev
                rcases hev with rfl | rfl <;> cases hop

end create

theorem CreationEnds.stable {result : Except ExecutionError CreateSessionResponse}
    (h : CreationEnds i result c) (hrely : Undisturbed i c d) : CreationEnds i result d := by
  have hown := hrely.others.own_eq
  cases result with
  | ok a =>
      intro key
      rw [hown]
      exact h key
  | error e =>
      intro ev
      rw [hown]
      exact h ev

/-- How a request ends. -/
def AlarmEnds (i : Nat) (result : Except ExecutionError Reply) (c : AlarmConfig settings rt) :
    Prop :=
  match result with
  | .ok (.created a) => CreationEnds i (.ok a) c
  | .ok _ => True
  | .error e => CreationEnds i (.error e) c

/-- Every request, before its first call. -/
theorem safe_serveAlarm (hkeeps : DedupInvariant c) (hunborn : ∀ ev ∈ c.history, ev.task ≠ i) :
    (serveAlarm settings r).Safe (alarmDiscipline settings rt) i r (AlarmEnds i) c := by
  cases r with
  | create payload key traceId =>
      refine Proc.Safe.bind (safe_createSession hunborn) hkeeps ?_ (fun _ _ _ h => h)
      exact fun a d _ h d' hrely _ => h.stable hrely
  | fail sessionId =>
      refine safe_alarm_call rfl rfl ?_ fun _ _ _ _ _ _ _ _ _ d _ _ => trivial
      exact fun d _ _ => ready_of_plain nofun nofun nofun

end safe

/-! ## The pool -/

/-- **Every request ends as it should** in the runs under the condition. -/
theorem allSafe_singleFlight {p : AlarmPool settings rt}
    (h : (alarmSystem settings rt).ReachableVia SingleFlight p) :
    Pool.AllSafe (alarmDiscipline settings rt) (fun i _ => AlarmEnds i) p := by
  refine Pool.safe_of_reachable ?_ (fun i r c hk hun => safe_serveAlarm hk hun) ?_ ?_ h
  · rintro s ⟨hsessions, hruns, -, -, hdedup⟩
    refine ⟨⟨?_, ?_, ?_, ?_, ?_⟩, ?_, fun key => ⟨0, none, Nat.zero_le _, ?_⟩, ?_⟩
    · simp
    · simp
    · simp
    · simp [hruns]
    · simp [touches]
    · simp [hdedup]
    · have hrow : rowOf s key = none := by simp [rowOf, Store.dedupRow, Table.get, hdedup]
      rw [hrow]
      exact .nil
    · simp [own, countedCalls, touches]
  · exact fun p i x r op k _ hok htask => hok r op k htask
  · intro p i x r op k a c hp _ _ hexec _ hguar j t hj _
    refine ⟨Config.exec_others hexec hj, hguar.sessions, fun key hwait => ?_⟩
    rcases hguar.alarms key with hsame | hmine | hnobody
    · exact hsame
    · exact absurd (hp.keeps.waiting_unique hwait hmine) hj
    · exact absurd hwait (hnobody j)

/-- **Deduplication holds** in every run in which no alarm is looked up while a call that has
missed it has yet to register. -/
theorem dedup_holds {p : AlarmPool settings rt}
    (h : (alarmSystem settings rt).ReachableVia SingleFlight p) : DedupHolds p := by
  have hsafe := allSafe_singleFlight h
  have hkeeps : DedupInvariant p.config := hsafe.keeps
  constructor
  · intro key i j time time' hpair e he htask ids hids
    obtain ⟨clock, openCall, -, hledger⟩ := hkeeps.ledger key
    obtain ⟨session, now, hreg, hclosed⟩ := hledger.expired_before_miss hpair
    obtain ⟨e', he', htask', runId, hids'⟩ := hkeeps.ids.registered key i session now hreg
    obtain rfl := hkeeps.ids.distinct e he e' he' ids _ hids hids'
      (Or.inr (Or.inr (htask.trans htask'.symm)))
    obtain rfl : ids = (session, runId) := Option.some.inj (hids.symm.trans hids')
    exact ⟨⟨now, hreg⟩, hclosed⟩
  · intro row hrow
    obtain ⟨clock, openCall, -, hledger⟩ := hkeeps.ledger row.dedupKey
    have hget : p.config.store.dedupRow row.dedupKey = some row :=
      Table.get_of_mem hkeeps.keys hrow
    exact hledger.row_count ⟨row.sessionId, row.expiresAt, row.hitCount⟩ (by simp [rowOf, hget])
  · exact hkeeps.once
  · intro i r a key htask hlooked
    exact hsafe.post_ret htask key hlooked
  · intro i r error htask
    exact hsafe.post_raise htask

end dedup

/-! ## Two runs -/

abbrev SampleAlarmPool := AlarmPool sampleSettings (workflow sampleDeps)

abbrev sampleAlarms : TransitionSystem SampleAlarmPool
    (Move (backend sampleSettings (workflow sampleDeps)) AlarmRequest) :=
  alarmSystem sampleSettings (workflow sampleDeps)

def quietPool : SampleAlarmPool := ⟨⟨emptyStore, []⟩, []⟩

theorem quietPool_init : sampleAlarms.init quietPool :=
  ⟨⟨rfl, rfl, rfl, rfl, rfl⟩, rfl, rfl⟩

/-- `SingleFlight`, computed. -/
def singleFlightCheck (p : SampleAlarmPool) :
    Move (backend sampleSettings (workflow sampleDeps)) AlarmRequest → Bool
  | .start _ => true
  | .step i _ =>
      match p.tasks[i]? with
      | some ⟨_, .call (.hit key) _⟩ =>
          (touches key p.config.history).all fun
            | .missed j _ => (touches key p.config.history).any fun
                | .registered j' _ _ => j' = j
                | _ => false
            | _ => true
      | _ => true

theorem singleFlight_of_check (p : SampleAlarmPool)
    (m : Move (backend sampleSettings (workflow sampleDeps)) AlarmRequest)
    (h : singleFlightCheck p m = true) : SingleFlight p m := by
  cases m with
  | start r => exact trivial
  | step i x =>
      rintro r op k htask key rfl j ⟨⟨time, hmissed⟩, hnone⟩
      simp only [singleFlightCheck, htask] at h
      have hany := List.all_eq_true.mp h _ hmissed
      obtain ⟨t, ht, hreg⟩ := List.any_eq_true.mp hany
      cases t with
      | registered j' s now =>
          obtain rfl : j' = j := by simpa using hreg
          exact hnone s now ht
      | missed | counted => cases hreg

def fanAlarm : AlarmRequest :=
  .create ⟨.alarm, some "site-1", some "pcs-1", some "alarm-1", some "fan", by simp [Text.truthy]⟩
    none "trace-1"

def alarmCalls (i : Nat) (xs : List (CallInput (workflow sampleDeps))) :
    List (Move (backend sampleSettings (workflow sampleDeps)) AlarmRequest) :=
  xs.map fun x => .step i x

/-- An alarm that opens a session, and comes once more within the window. -/
def mergedMoves : List (Move (backend sampleSettings (workflow sampleDeps)) AlarmRequest) :=
  [.start fanAlarm] ++
    alarmCalls 0 [sampleInput 1 "" "", sampleInput 1 "session-1" "run-1", sampleInput 1 "" "run-1'",
      sampleInput 1 "" "", sampleInput 1 "" "", sampleInput 2 "" ""] ++
  [.start fanAlarm] ++ alarmCalls 1 [sampleInput 3 "" "", sampleInput 3 "" ""]

def mergedPool : SampleAlarmPool :=
  (sampleAlarms.runChecked singleFlightCheck quietPool mergedMoves).get rfl

/-- The second alarm is counted for the session of the first one. -/
theorem merged_alarm_counted :
    mergedPool.config.store.dedup = [⟨"pcs-1\x00fan", "session-1", 103, 2⟩] ∧
      DedupHolds mergedPool := by
  have hreach : sampleAlarms.ReachableVia SingleFlight mergedPool :=
    TransitionSystem.ReachableVia.of_runChecked singleFlight_of_check (.init quietPool_init)
      (Option.some_get rfl).symm
  exact ⟨rfl, dedup_holds hreach⟩

/-- Two alarms that both look for a session before either has registered its own. -/
def racingMoves : List (Move (backend sampleSettings (workflow sampleDeps)) AlarmRequest) :=
  [.start fanAlarm, .start fanAlarm] ++
    alarmCalls 0 [sampleInput 1 "" ""] ++ alarmCalls 1 [sampleInput 1 "" ""] ++
    alarmCalls 0 [sampleInput 1 "session-1" "run-1", sampleInput 1 "" "run-1'", sampleInput 1 "" "",
      sampleInput 1 "" ""] ++
    alarmCalls 1 [sampleInput 1 "session-2" "run-2", sampleInput 1 "" "run-2'", sampleInput 1 "" "",
      sampleInput 1 "" ""] ++
    alarmCalls 0 [sampleInput 2 "" ""] ++ alarmCalls 1 [sampleInput 2 "" ""]

def racingPool : SampleAlarmPool := (sampleAlarms.run quietPool racingMoves).get rfl

/-- The second one raises `IntegrityError` with its session created. -/
theorem racing_alarm_raises : ¬ ∀ p, sampleAlarms.Reachable p → DedupHolds p := by
  intro hall
  have hreach : sampleAlarms.Reachable racingPool :=
    TransitionSystem.Reachable.of_run (.init quietPool_init) (Option.some_get rfl).symm
  have hraised := (hall _ hreach).raises 1 _ .integrityError rfl
  have hcreated : ∃ e ∈ own 1 racingPool.config.history,
      createdIds e = some ("session-2", "run-2") :=
    ⟨_, List.Mem.tail _ (List.Mem.head _), rfl⟩
  obtain ⟨e, he, hids⟩ := hcreated
  rw [(hraised e he).1] at hids
  cases hids

end EnergyAgent.Agent.Dedup
