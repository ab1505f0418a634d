import EnergyAgent.Users.CallRules

/-!
# Refresh-token families are linear

A login starts a family of refresh sessions, and each rotation revokes the session it is shown and
adds the next one. `FamilyInvariant` says what the table looks like at any time, `Later` what any
call leaves true of it; a family without a live session (`FamilyDead`) stays that way. A refresh
succeeds at the moment its rotation commits, and the history of calls records these moments.
-/

namespace EnergyAgent.Users

open EnergyAgent.Core EnergyAgent.Lib

/-! ## The table of sessions -/

structure FamilyInvariant (s : Tables) : Prop where
  nodup : (s.sessions.map RefreshSession.sessionId).Nodup
  coherent : ∀ r ∈ s.sessions, r.Coherent
  /-- At most one session of a family is live. -/
  linear : ∀ r ∈ s.sessions, ∀ r' ∈ s.sessions, r.tokenFamilyId = r'.tokenFamilyId →
    r.revokedAt = none → r'.revokedAt = none → r = r'

/-- The family has sessions, all of them revoked. -/
def FamilyDead (s : Tables) (familyId : String) : Prop :=
  (∃ r ∈ s.sessions, r.tokenFamilyId = familyId) ∧
  ∀ r ∈ s.sessions, r.tokenFamilyId = familyId → r.revokedAt ≠ none

/-- The session as it may be later: the same token, and revoked if it was. -/
structure RefreshSession.Kept (r r' : RefreshSession) : Prop where
  sessionId : r'.sessionId = r.sessionId
  userId : r'.userId = r.userId
  tokenHash : r'.tokenHash = r.tokenHash
  familyId : r'.tokenFamilyId = r.tokenFamilyId
  revokedAt : r.revokedAt ≠ none → r'.revokedAt = r.revokedAt

theorem RefreshSession.Kept.refl (r : RefreshSession) : r.Kept r :=
  ⟨rfl, rfl, rfl, rfl, fun _ => rfl⟩

theorem RefreshSession.Kept.trans {r r' r'' : RefreshSession} (h : r.Kept r') (h' : r'.Kept r'') :
    r.Kept r'' where
  sessionId := h'.sessionId.trans h.sessionId
  userId := h'.userId.trans h.userId
  tokenHash := h'.tokenHash.trans h.tokenHash
  familyId := h'.familyId.trans h.familyId
  revokedAt hr := by
    have hmid := h.revokedAt hr
    rw [h'.revokedAt (hmid ▸ hr), hmid]

theorem kept_revoke (r : RefreshSession) (now : Nat) (reason : String) :
    r.Kept (r.revoke now reason) := by
  unfold RefreshSession.revoke
  split
  · next hlive => exact ⟨rfl, rfl, rfl, rfl, fun h => absurd hlive h⟩
  · exact .refl r

theorem revoke_revoked (r : RefreshSession) (now : Nat) (reason : String) :
    (r.revoke now reason).revokedAt ≠ none := by
  unfold RefreshSession.revoke
  split
  · simp
  · next hrevoked => simp [hrevoked]

theorem kept_revokeRow (which : RefreshSession → Bool) (now : Nat) (reason : String)
    (r : RefreshSession) : r.Kept (revokeRow which now reason r) := by
  unfold revokeRow
  split
  · exact kept_revoke r now reason
  · exact .refl r

theorem revokeWhere_sessions (which : RefreshSession → Bool) (now : Nat) (reason : String)
    (s : Tables) :
    (revokeWhere which now reason s).sessions = s.sessions.map (revokeRow which now reason) := rfl

theorem revokeWhere_session (which : RefreshSession → Bool) (now : Nat) (reason : String)
    (s : Tables) (sessionId : String) :
    (revokeWhere which now reason s).session sessionId =
      (s.session sessionId).map (revokeRow which now reason) :=
  Table.get_map (fun r => (kept_revokeRow which now reason r).sessionId) sessionId

theorem FamilyInvariant.revokeWhere {s : Tables} (h : FamilyInvariant s)
    (which : RefreshSession → Bool) (now : Nat) (reason : String) :
    FamilyInvariant (revokeWhere which now reason s) := by
  have hkept := kept_revokeRow which now reason
  constructor
  · rw [revokeWhere_sessions, List.map_map]
    have hkeys : RefreshSession.sessionId ∘ revokeRow which now reason =
        RefreshSession.sessionId := funext fun r => (hkept r).sessionId
    rw [hkeys]
    exact h.nodup
  · intro r hr
    obtain ⟨r₀, hr₀, rfl⟩ := List.mem_map.mp hr
    obtain ⟨hid, huser, htoken, hfam, -⟩ := hkept r₀
    have hco := h.coherent r₀ hr₀
    exact ⟨by rw [htoken, hid, hco.sessionId], by rw [htoken, huser, hco.sub],
      by rw [htoken, hfam, hco.familyId]⟩
  · intro r hr r' hr' hfam hlive hlive'
    obtain ⟨r₀, hr₀, rfl⟩ := List.mem_map.mp hr
    obtain ⟨r₁, hr₁, rfl⟩ := List.mem_map.mp hr'
    have hlive₀ : ∀ q : RefreshSession, (revokeRow which now reason q).revokedAt = none →
        q.revokedAt = none := by
      intro q hq
      by_contra hne
      exact hne ((hkept q).revokedAt hne ▸ hq)
    have hfam₀ : r₀.tokenFamilyId = r₁.tokenFamilyId := by
      rw [← (hkept r₀).familyId, ← (hkept r₁).familyId]
      exact hfam
    rw [h.linear r₀ hr₀ r₁ hr₁ hfam₀ (hlive₀ r₀ hlive) (hlive₀ r₁ hlive')]

/-- Adding a coherent row whose family has no live session. -/
theorem FamilyInvariant.append {s : Tables} (h : FamilyInvariant s) {row : RefreshSession}
    (hnew : newSession s row) (hrow : row.Coherent)
    (hfam : ∀ r ∈ s.sessions, r.tokenFamilyId = row.tokenFamilyId → r.revokedAt ≠ none) :
    FamilyInvariant { s with sessions := s.sessions ++ [row] } := by
  constructor
  · exact Table.nodup_append h.nodup (Table.get_eq_none.mpr fun r hr => (hnew r hr).1)
  · intro r hr
    rcases List.mem_append.mp hr with hold | hlast
    · exact h.coherent r hold
    · rw [List.mem_singleton.mp hlast]
      exact hrow
  · intro r hr r' hr' hsame hlive hlive'
    rcases List.mem_append.mp hr with hold | hlast <;>
      rcases List.mem_append.mp hr' with hold' | hlast'
    · exact h.linear r hold r' hold' hsame hlive hlive'
    · rw [List.mem_singleton.mp hlast'] at hsame
      exact absurd hlive (hfam r hold hsame)
    · rw [List.mem_singleton.mp hlast] at hsame
      exact absurd hlive' (hfam r' hold' hsame.symm)
    · rw [List.mem_singleton.mp hlast, List.mem_singleton.mp hlast']

theorem newSession_revokeWhere {s : Tables} {row : RefreshSession} (h : newSession s row)
    (which : RefreshSession → Bool) (now : Nat) (reason : String)
    (hjti : ∀ r, (revokeRow which now reason r).jti = r.jti) :
    newSession (revokeWhere which now reason s) row := by
  intro r hr
  obtain ⟨r₀, hr₀, rfl⟩ := List.mem_map.mp hr
  rw [(kept_revokeRow which now reason r₀).sessionId, hjti]
  exact h r₀ hr₀

theorem revokeRow_jti (which : RefreshSession → Bool) (now : Nat) (reason : String)
    (r : RefreshSession) : (revokeRow which now reason r).jti = r.jti := by
  unfold revokeRow RefreshSession.revoke
  split
  · split <;> rfl
  · rfl

/-- After the live session of a family is rotated away, the family has none. -/
theorem rotated_family_dead {s : Tables} (h : FamilyInvariant s) {current : RefreshSession}
    (hcurrent : current ∈ s.sessions) (hlive : current.revokedAt = none) (now : Nat) :
    ∀ r ∈ (revokeWhere (·.sessionId = current.sessionId) now "rotated" s).sessions,
      r.tokenFamilyId = current.tokenFamilyId → r.revokedAt ≠ none := by
  intro r hr hfam
  obtain ⟨r₀, hr₀, rfl⟩ := List.mem_map.mp hr
  by_cases hid : r₀.sessionId = current.sessionId
  · have hrow : revokeRow (·.sessionId = current.sessionId) now "rotated" r₀ =
        r₀.revoke now "rotated" := by simp [revokeRow, hid]
    exact hrow ▸ revoke_revoked r₀ now "rotated"
  · have hrow : revokeRow (·.sessionId = current.sessionId) now "rotated" r₀ = r₀ := by
      simp [revokeRow, hid]
    intro hnone
    have hlive₀ : r₀.revokedAt = none := hrow ▸ hnone
    have hfam₀ : r₀.tokenFamilyId = current.tokenFamilyId := by
      rw [← (kept_revokeRow _ now "rotated" r₀).familyId]
      exact hfam
    exact hid (by rw [h.linear r₀ hr₀ current hcurrent hfam₀ hlive₀ hlive])

theorem SessionWrite.invariant {s t : Tables} (h : FamilyInvariant s)
    (hw : SessionWrite s t.sessions) : FamilyInvariant t := by
  suffices hs : FamilyInvariant { s with sessions := t.sessions } from
    ⟨hs.nodup, hs.coherent, hs.linear⟩
  generalize t.sessions = rows at hw
  cases hw with
  | keep => exact h
  | revoke which now reason => exact h.revokeWhere which now reason
  | create row hnew hfam hrow =>
      exact h.append hnew hrow fun r hr hsame => absurd hsame (hfam r hr)
  | rotate current row now hcurrent hlive hnew hrow hfam =>
      have hrevoked := h.revokeWhere (·.sessionId = current.sessionId) now "rotated"
      have hdead := rotated_family_dead h hcurrent hlive now
      have hfam' : row.tokenFamilyId = current.tokenFamilyId := by
        rw [hfam, (h.coherent current hcurrent).familyId]
      exact hrevoked.append (newSession_revokeWhere hnew _ _ _ (revokeRow_jti _ _ _)) hrow
        fun r hr hsame => hdead r hr (by rw [hsame, hfam'])

/-- No session is lost, and a revoked one stays revoked. -/
theorem SessionWrite.kept {s t : Tables} (hw : SessionWrite s t.sessions) {sessionId : String}
    {r : RefreshSession} (hr : s.session sessionId = some r) :
    ∃ r', t.session sessionId = some r' ∧ r.Kept r' := by
  unfold Tables.session at hr ⊢
  generalize t.sessions = rows at hw
  cases hw with
  | keep => exact ⟨r, hr, .refl r⟩
  | revoke which now reason =>
      refine ⟨_, ?_, kept_revokeRow which now reason r⟩
      have := revokeWhere_session which now reason s sessionId
      unfold Tables.session at this
      rw [this, hr]
      rfl
  | create row => exact ⟨r, Table.get_append_of_some hr, .refl r⟩
  | rotate current row now =>
      refine ⟨_, Table.get_append_of_some ?_, kept_revokeRow (·.sessionId = current.sessionId) now
        "rotated" r⟩
      have := revokeWhere_session (·.sessionId = current.sessionId) now "rotated" s sessionId
      unfold Tables.session at this
      rw [this, hr]
      rfl

/-- A row of the later table is a row that was kept, or starts or continues a family that is not
dead. -/
theorem SessionWrite.dead {s t : Tables} (h : FamilyInvariant s) (hw : SessionWrite s t.sessions)
    {familyId : String} (hdead : FamilyDead s familyId) : FamilyDead t familyId := by
  obtain ⟨⟨r₀, hr₀, hfam₀⟩, hall⟩ := hdead
  have hrow : ∀ (which : RefreshSession → Bool) (now : Nat) (reason : String),
      ∀ r ∈ (revokeWhere which now reason s).sessions, r.tokenFamilyId = familyId →
        r.revokedAt ≠ none := by
    intro which now reason r hr hfam
    obtain ⟨r₁, hr₁, rfl⟩ := List.mem_map.mp hr
    have hkept := kept_revokeRow which now reason r₁
    have hrevoked := hall r₁ hr₁ (by rw [← hkept.familyId]; exact hfam)
    rw [hkept.revokedAt hrevoked]
    exact hrevoked
  constructor
  · obtain ⟨r', hr', hkept⟩ := hw.kept (t := t) (Table.get_of_mem h.nodup hr₀)
    exact ⟨r', (Table.get_eq_some hr').1, by rw [hkept.familyId, hfam₀]⟩
  · generalize t.sessions = rows at hw
    cases hw with
    | keep => exact hall
    | revoke which now reason => exact hrow which now reason
    | create row hnew hfam hco =>
        intro r hr hsame
        rcases List.mem_append.mp hr with hold | hlast
        · exact hall r hold hsame
        · rw [List.mem_singleton.mp hlast] at hsame
          exact absurd (hfam₀.trans hsame.symm) (hfam r₀ hr₀)
    | rotate current row now hcurrent hlive hnew hco hfam =>
        intro r hr hsame
        rcases List.mem_append.mp hr with hold | hlast
        · exact hrow _ now "rotated" r hold hsame
        · rw [List.mem_singleton.mp hlast, hfam, (h.coherent current hcurrent).familyId] at hsame
          exact absurd hlive (hall current hcurrent hsame)

/-- `revoke_family` leaves no live session. -/
theorem dead_revokeFamily {s : Tables} {row : RefreshSession} (hrow : row ∈ s.sessions) (now : Nat)
    (reason : String) :
    FamilyDead (revokeWhere (·.tokenFamilyId = row.tokenFamilyId) now reason s)
      row.tokenFamilyId := by
  constructor
  · exact ⟨_, List.mem_map_of_mem hrow, (kept_revokeRow _ now reason row).familyId⟩
  · intro r hr hfam
    obtain ⟨r₀, -, rfl⟩ := List.mem_map.mp hr
    have hfam₀ : r₀.tokenFamilyId = row.tokenFamilyId := by
      rw [← (kept_revokeRow _ now reason r₀).familyId]
      exact hfam
    have hrow₀ : revokeRow (·.tokenFamilyId = row.tokenFamilyId) now reason r₀ =
        r₀.revoke now reason := by simp [revokeRow, hfam₀]
    exact hrow₀ ▸ revoke_revoked r₀ now reason

/-! ## The rotations of a history -/

/-- The request and the token of a rotation that committed. -/
def rotatedBy : Event backend Request → Option (Nat × RefreshToken)
  | ⟨i, _, .rotate _ token _ _, .rotated _⟩ => some (i, token)
  | _ => none

def rotations (history : List (Event backend Request)) : List (Nat × RefreshToken) :=
  history.filterMap rotatedBy

theorem rotations_append (h h' : List (Event backend Request)) :
    rotations (h ++ h') = rotations h ++ rotations h' := List.filterMap_append

/-- A rotation found the token's session live and left it revoked. -/
theorem rotatedBy_eq_some {i : Nat} {r : Request} {op : Op} {a : Ans op} {x : CallInput} {s t : Tables}
    {q : Nat × RefreshToken} (hinv : FamilyInvariant s) (hexec : exec op x s = some (a, t))
    (h : rotatedBy ⟨i, r, op, a⟩ = some q) :
    q.1 = i ∧ ∃ current, s.session q.2.sessionId = some current ∧ current.tokenHash = q.2 ∧
      current.revokedAt = none ∧ ∃ r, t.session q.2.sessionId = some r ∧ r.tokenHash = q.2 ∧
      r.revokedAt ≠ none := by
  unfold rotatedBy at h
  split at h
  · next j req sessionId token jti newValues ids heq =>
      cases heq
      cases h
      rcases rotate_cases hexec with ⟨hno, -⟩ | ⟨_, -, -, -, hno, -⟩ |
        ⟨current, hcurrent, htoken, hlive, -, -, rfl⟩
      · cases hno
      · cases hno
      · obtain ⟨hmem, hkey⟩ := Table.get_eq_some hcurrent
        have hid : token.sessionId = sessionId := by
          rw [← htoken, (hinv.coherent current hmem).sessionId, hkey]
        subst hid
        refine ⟨rfl, current, hcurrent, htoken, hlive,
          revokeRow (·.sessionId = token.sessionId) x.now "rotated" current, ?_, ?_, ?_⟩
        · refine Table.get_append_of_some ?_
          have := revokeWhere_session (·.sessionId = token.sessionId) x.now "rotated" s
            token.sessionId
          unfold Tables.session at this hcurrent
          rw [this, hcurrent]
          rfl
        · rw [(kept_revokeRow _ _ _ current).tokenHash, htoken]
        · have hrow : revokeRow (·.sessionId = token.sessionId) x.now "rotated" current =
              current.revoke x.now "rotated" := by simp [revokeRow, hkey]
          exact hrow ▸ revoke_revoked current x.now "rotated"
  · cases h

/-- The store is linear, and the history of rotations agrees with it: no token was rotated twice,
and the session of a rotated token is revoked. -/
structure FamilyKeeps (c : Config backend Request) : Prop where
  store : FamilyInvariant c.store
  once : ((rotations c.history).map Prod.snd).Nodup
  spent : ∀ q ∈ rotations c.history, ∃ r, c.store.session q.2.sessionId = some r ∧
    r.tokenHash = q.2 ∧ r.revokedAt ≠ none

/-- What stays true from one configuration to any later one. -/
structure Later (c d : Config backend Request) : Prop where
  users : ∀ userId m, c.store.user userId = some m →
    ∃ m', d.store.user userId = some m' ∧ m.tokenVersion ≤ m'.tokenVersion
  kept : ∀ sessionId r, c.store.session sessionId = some r →
    ∃ r', d.store.session sessionId = some r' ∧ r.Kept r'
  dead : ∀ familyId, FamilyDead c.store familyId → FamilyDead d.store familyId
  /-- No token of a dead family is rotated. -/
  history : ∃ es, d.history = c.history ++ es ∧
    ∀ q ∈ rotations es, ¬ FamilyDead c.store q.2.familyId

theorem Later.refl (c : Config backend Request) : Later c c where
  users _ m h := ⟨m, h, Nat.le_refl _⟩
  kept _ r h := ⟨r, h, .refl r⟩
  dead _ h := h
  history := ⟨[], by simp, by simp [rotations]⟩

theorem Later.trans {c d e : Config backend Request} (h : Later c d) (h' : Later d e) : Later c e where
  users u m hm := by
    obtain ⟨m', hm', hle⟩ := h.users u m hm
    obtain ⟨m'', hm'', hle'⟩ := h'.users u m' hm'
    exact ⟨m'', hm'', Nat.le_trans hle hle'⟩
  kept sid r hr := by
    obtain ⟨r', hr', hk⟩ := h.kept sid r hr
    obtain ⟨r'', hr'', hk'⟩ := h'.kept sid r' hr'
    exact ⟨r'', hr'', hk.trans hk'⟩
  dead f hf := h'.dead f (h.dead f hf)
  history := by
    obtain ⟨es, hes, hnot⟩ := h.history
    obtain ⟨es', hes', hnot'⟩ := h'.history
    refine ⟨es ++ es', by rw [hes', hes, List.append_assoc], ?_⟩
    intro q hq hdead
    rw [rotations_append] at hq
    rcases List.mem_append.mp hq with hq | hq
    · exact hnot q hq hdead
    · exact hnot' q hq (h.dead _ hdead)

/-- **The step lemma.** A call that stores coherent rows keeps the invariant. -/
theorem call_keeps {c d : Config backend Request} {i : Nat} {r : Request} {op : Op} {x : CallInput} {a : Ans op}
    (hop : op.StoresCoherent) (hc : FamilyKeeps c) (h : c.exec i r op x = some (a, d)) :
    FamilyKeeps d ∧ Later c d := by
  obtain ⟨hexec, hhist⟩ := Config.exec_eq_some h
  have hwrite := exec_sessions hop hexec
  have hkept : ∀ sid r, c.store.session sid = some r →
      ∃ r', d.store.session sid = some r' ∧ r.Kept r' := fun _ _ => hwrite.kept
  have hnew : rotations d.history = rotations c.history ++ rotations [⟨i, r, op, a⟩] := by
    rw [hhist, rotations_append]
  have hlast : ∀ q ∈ rotations [⟨i, r, op, a⟩], rotatedBy ⟨i, r, op, a⟩ = some q := by
    intro q hq
    obtain ⟨e, he, hrot⟩ := List.mem_filterMap.mp hq
    rwa [List.mem_singleton.mp he] at hrot
  refine ⟨⟨hwrite.invariant hc.store, ?_, ?_⟩, ⟨?_, hkept, ?_, [⟨i, r, op, a⟩], hhist, ?_⟩⟩
  · -- a token rotated now has a live session, those rotated before have revoked ones
    rw [hnew, List.map_append, List.nodup_append]
    refine ⟨hc.once, ?_, ?_⟩
    · cases hrot : rotatedBy ⟨i, r, op, a⟩ <;> simp [rotations, hrot]
    · intro t ht t' ht' heq
      obtain ⟨q, hq, rfl⟩ := List.mem_map.mp ht
      obtain ⟨q', hq', rfl⟩ := List.mem_map.mp ht'
      obtain ⟨r, hr, -, hrevoked⟩ := hc.spent q hq
      obtain ⟨-, current, hcurrent, -, hlive, -⟩ := rotatedBy_eq_some hc.store hexec (hlast q' hq')
      rw [← heq, hr] at hcurrent
      cases hcurrent
      exact hrevoked hlive
  · intro q hq
    rw [hnew] at hq
    rcases List.mem_append.mp hq with hq | hq
    · obtain ⟨r, hr, htoken, hrevoked⟩ := hc.spent q hq
      obtain ⟨r', hr', hk⟩ := hkept _ r hr
      exact ⟨r', hr', by rw [hk.tokenHash, htoken], by rw [hk.revokedAt hrevoked]; exact hrevoked⟩
    · obtain ⟨-, _, -, -, -, hr⟩ := rotatedBy_eq_some hc.store hexec (hlast q hq)
      exact hr
  · intro userId m hm
    obtain ⟨m', hm', hedit⟩ := exec_user hexec hm
    exact ⟨m', hm', hedit.tokenVersion_le⟩
  · exact fun _ hdead => hwrite.dead hc.store hdead
  · intro q hq hdead
    obtain ⟨-, current, hcurrent, htoken, hlive, -⟩ := rotatedBy_eq_some hc.store hexec (hlast q hq)
    have hmem := (Table.get_eq_some hcurrent).1
    exact hdead.2 current hmem (by rw [← (hc.store.coherent current hmem).familyId, htoken]) hlive

/-! ## A refresh among other requests -/

/-- The requests promise each other, and rely on, what `Later` says. -/
def familyDiscipline : Discipline backend Request where
  keeps := FamilyKeeps
  guar _ c d := Later c d
  rely _ _ c d := Later c d
  may _ _ _ := True
  refl _ _ c := .refl c
  trans _ _ _ _ _ h h' := h.trans h'

/-- How a refresh of `token` ends: with its rotation on record, or, when the token was used before,
with a dead family and a raised version. -/
def RefreshEnds {α : Type} (i : Nat) (token : RefreshToken) :
    Except AuthError α → Config backend Request → Prop
  | .ok _, c => (i, token) ∈ rotations c.history
  | .error e, c => e = .authRefreshReused → FamilyDead c.store token.familyId ∧
      ∃ m, c.store.user token.sub = some m ∧ token.tokenVersion < m.tokenVersion

theorem RefreshEnds.later {α : Type} {i : Nat} {token : RefreshToken} {r : Except AuthError α}
    {c d : Config backend Request} (h : RefreshEnds i token r c) (hl : Later c d) :
    RefreshEnds i token r d := by
  cases r with
  | ok a =>
      obtain ⟨es, hes, -⟩ := hl.history
      simp only [RefreshEnds, hes, rotations_append]
      exact List.mem_append_left _ h
  | error e =>
      intro he
      obtain ⟨hdead, m, hm, hlt⟩ := h he
      obtain ⟨m', hm', hle⟩ := hl.users _ m hm
      exact ⟨hl.dead _ hdead, m', hm', Nat.lt_of_lt_of_le hlt hle⟩

section refresh

variable {α : Type} {i : Nat} {r : Request} {token : RefreshToken} {c : Config backend Request}

theorem family_raise {e : AuthError} (h : RefreshEnds (α := α) i token (.error e) c) :
    (Proc.raise e : Call α).Safe familyDiscipline i r (RefreshEnds i token) c :=
  fun _ hl _ => h.later hl

theorem family_ret {a : α} (h : RefreshEnds i token (.ok a) c) :
    (Proc.ret a : Call α).Safe familyDiscipline i r (RefreshEnds i token) c :=
  fun _ hl _ => h.later hl

theorem family_ask (op : Op) {f : Ans op → Call α}
    {post : Except AuthError α → Config backend Request → Prop} (hop : op.StoresCoherent)
    (h : ∀ d x a e, Later c d → FamilyKeeps d → exec op x d.store = some (a, e.store) →
      e.history = d.history ++ [⟨i, r, op, a⟩] → FamilyKeeps e → Later d e →
      (f a).Safe familyDiscipline i r post e) :
    (ask op >>= f).Safe familyDiscipline i r post c := by
  refine Proc.Safe.ask (fun _ _ _ _ hk _ hexec => call_keeps hop hk hexec) ?_
  intro d x a e hl hk _ hexec hkeeps hlater
  obtain ⟨hstore, hhist⟩ := Config.exec_eq_some hexec
  exact h d x a e hl hk hstore hhist hkeeps hlater

/-- The profile read at the end of a successful refresh. -/
theorem family_profile {userId : String} {f : UserProfile → TokenResponse}
    (h : (i, token) ∈ rotations c.history) :
    (currentUser userId >>= fun u => Proc.ret (f u)).Safe familyDiscipline i r
      (RefreshEnds i token) c := by
  refine family_ask (.profile userId) trivial fun d x a e hl hk _ _ _ hl' => ?_
  have hrot : (i, token) ∈ rotations e.history :=
    RefreshEnds.later (α := Unit) (r := .ok ()) h (hl.trans hl')
  cases a with
  | none => exact family_raise fun he => by cases he
  | some profile => exact family_ret hrot

theorem family_refreshClaims (settings : AuthSettings) (now : Nat) :
    (refreshClaims settings token now).Safe familyDiscipline i r (RefreshEnds i token) c := by
  refine family_ask _ trivial fun d x user e hl hk hread hhist hke hle => ?_
  have hrefuse : (Proc.raise .authRefreshInvalid : Call TokenResponse).Safe familyDiscipline i r
      (RefreshEnds i token) e := family_raise fun he => by cases he
  cases user with
  | none => exact hrefuse
  | some user =>
      simp only [orRaise, Proc.ret_bind, Proc.raiseIf]
      split
      · exact hrefuse
      · next hvalid =>
          have hversion : user.tokenVersion = token.tokenVersion := by
            by_contra hne
            exact hvalid (Or.inr hne)
          have huser : e.store.user token.sub = some user := by
            simp only [exec, Option.some.injEq, Prod.mk.injEq] at hread
            rw [← hread.2]
            exact hread.1
          refine family_ask _ (fun _ => ⟨sessionRow_coherent settings _ _ _, rfl⟩)
            fun d' x' answer e' hl' hk' hrot hhist' hke' hle' => ?_
          have hrotate : rotate token.sessionId token token.jti (fun ids => sessionRow settings
              (issueRefresh user token.familyId ids) (some token.sessionId) now) x' d'.store =
              some (answer, e'.store) := hrot
          rcases rotate_cases hrotate with ⟨rfl, -⟩ | ⟨current, hcurrent, htoken, -, rfl, hsame⟩ |
            ⟨_, -, -, -, -, rfl, -⟩
          · exact family_raise fun he => by cases he
          · -- the session was revoked before: its family is revoked, then the version raised
            have hco := hk'.store.coherent current (Table.get_eq_some hcurrent).1
            have hfam : current.tokenFamilyId = token.familyId := by rw [← hco.familyId, htoken]
            have hsub : current.userId = token.sub := by rw [← hco.sub, htoken]
            refine family_ask _ trivial fun d₁ x₁ _ e₁ hl₁ hk₁ hrevoke _ _ hle₁ => ?_
            refine family_ask _ trivial fun d₂ x₂ _ e₂ hl₂ hk₂ hbump _ _ hle₂ => ?_
            refine family_raise fun _ => ⟨?_, ?_⟩
            · refine hle₂.dead _ (hl₂.dead _ ?_)
              obtain ⟨row, hrow, hkept⟩ := (hle'.trans hl₁).kept _ current hcurrent
              have hstore : e₁.store = revokeWhere (·.tokenFamilyId = current.tokenFamilyId) x₁.now
                  "reuse_detected" d₁.store := (Prod.mk.inj (Option.some.inj hrevoke)).2.symm
              rw [hstore, ← hfam, ← hkept.familyId]
              exact dead_revokeFamily (Table.get_eq_some hrow).1 x₁.now "reuse_detected"
            · obtain ⟨m, hm, hle⟩ :=
                (hl'.trans (hle'.trans (hl₁.trans (hle₁.trans hl₂)))).users _ user huser
              have hstore : e₂.store = incrementTokenVersion current.userId d₂.store :=
                (Prod.mk.inj (Option.some.inj hbump)).2.symm
              rw [hstore, ← hsub]
              rw [← hsub] at hm
              refine ⟨m.bumpVersion, user_writeUser_self (fun _ => rfl) hm, ?_⟩
              rw [← hversion]
              exact Nat.lt_succ_of_le hle
          · refine family_profile ?_
            simp only [hhist', rotations_append]
            exact List.mem_append_right _ (by simp [rotations, rotatedBy])

end refresh

/-- What a request has to show at its end. -/
def FamilyPost (i : Nat) : Request → Except AuthError Reply → Config backend Request → Prop
  | .refresh (.claims token) _ _ => RefreshEnds i token
  | _ => fun _ _ => True

theorem family_serve (codec : Codec) (settings : AuthSettings) (i : Nat) (r : Request)
    (c : Config backend Request) (hc : FamilyKeeps c) :
    (serve codec settings r).Safe familyDiscipline i r (FamilyPost i r) c := by
  have htrivial : (∀ res d, FamilyKeeps d → FamilyPost i r res d) →
      (serve codec settings r).Safe familyDiscipline i r (FamilyPost i r) c := fun hpost =>
    Proc.Safe.of_uses (uses_serve r) (fun _ _ _ _ _ hop hk _ hexec => call_keeps hop hk hexec) hpost
  match r with
  | .refresh (.claims token) limited now =>
      have hrefresh : (Users.refresh settings (.claims token) limited now).Safe
          familyDiscipline i (.refresh (.claims token) limited now) (RefreshEnds i token) c := by
        simp only [refresh, Proc.raiseIf]
        split
        · exact family_raise fun he => by cases he
        · exact family_refreshClaims settings now
      exact hrefresh.bind hc (fun a d _ h => family_ret h) (fun _ _ _ h => h)
  | .refresh .expired _ _ | .refresh .invalid _ _ | .login .. | .authenticateAccess _
  | .changePassword .. | .logout .. | .logoutAll _ | .get _ | .create _ | .patch .. | .disable ..
  | .enable _ | .resetPassword .. | .revokeSessions _ => exact htrivial fun _ _ _ => trivial

section runs

variable {codec : Codec} {settings : AuthSettings} {p q : UserPool}

/-- Request `i` was a refresh of `token` and has succeeded. -/
def Refreshed (p : UserPool) (i : Nat) (token : RefreshToken) : Prop :=
  ∃ limited now reply,
    p.tasks[i]? = some (Task.mk (.refresh (.claims token) limited now) (.ret reply))

/-- Request `i` was a refresh of `token` and has raised `AuthRefreshReused`. -/
def ReuseRaised (p : UserPool) (i : Nat) (token : RefreshToken) : Prop :=
  ∃ limited now, p.tasks[i]? =
    some (Task.mk (.refresh (.claims token) limited now) (.raise .authRefreshReused))

theorem families_safe (h : (system codec settings).Reachable p) :
    Pool.AllSafe familyDiscipline FamilyPost p := by
  unfold system at h
  refine Pool.safe_of_reachable ?_ (fun i r c hc _ => family_serve codec settings i r c hc) ?_ ?_ h
  · rintro s ⟨-, hnone⟩
    refine ⟨⟨?_, ?_, ?_⟩, ?_, ?_⟩ <;> simp [hnone, rotations]
  · exact fun _ _ _ _ _ _ _ _ _ => trivial
  · exact fun _ _ _ _ _ _ _ _ _ _ _ _ _ hguar _ _ _ _ => hguar

theorem refreshed_rotation (h : (system codec settings).Reachable p) {i : Nat}
    {token : RefreshToken} (hr : Refreshed p i token) :
    (i, token) ∈ rotations p.config.history := by
  obtain ⟨limited, now, reply, htask⟩ := hr
  exact (families_safe h).post_ret htask

/-- From any reached state on, every run only moves on as `Later` says. -/
theorem later_of_run (hp : (system codec settings).Reachable p) {moves : List UserMove}
    (hrun : (system codec settings).run p moves = some q) : Later p.config q.config := by
  induction moves generalizing p with
  | nil =>
      cases hrun
      exact .refl _
  | cons m moves ih =>
      obtain ⟨p', hstep, hrest⟩ := Option.bind_eq_some_iff.mp hrun
      have hlater : Later p.config p'.config := by
        rcases Pool.step_cases hstep with ⟨r, -, rfl⟩ | ⟨i, x, r, op, k, a, c, -, htask, hexec, rfl⟩
        · exact .refl _
        · exact ((families_safe hp).call htask trivial hexec).2.1
      exact hlater.trans (ih (hp.step trivial hstep) hrest)

/-- **Families of refresh tokens are linear.** In every state that any interleaving of requests
reaches: a family has at most one live session; a revoked session is revoked, at the same time,
in every later state; two successful refreshes of one token are the same request; and once a
refresh has raised `AuthRefreshReused`, the family of its token is revoked, the user's version is
above that of the token, and every refresh of the family that ever succeeds had its rotation
committed before. -/
theorem families_linear (hp : (system codec settings).Reachable p) :
    (∀ r ∈ p.config.store.sessions, ∀ r' ∈ p.config.store.sessions,
      r.tokenFamilyId = r'.tokenFamilyId → r.revokedAt = none → r'.revokedAt = none → r = r') ∧
    (∀ moves q, (system codec settings).run p moves = some q → ∀ sessionId r,
      p.config.store.session sessionId = some r → r.revokedAt ≠ none →
      ∃ r', q.config.store.session sessionId = some r' ∧ r'.revokedAt = r.revokedAt) ∧
    (∀ i j token, Refreshed p i token → Refreshed p j token → i = j) ∧
    (∀ i token, ReuseRaised p i token →
      (∀ r ∈ p.config.store.sessions, r.tokenFamilyId = token.familyId → r.revokedAt ≠ none) ∧
      (∃ user, p.config.store.user token.sub = some user ∧
        token.tokenVersion < user.tokenVersion) ∧
      ∀ moves q, (system codec settings).run p moves = some q → ∀ j token',
        token'.familyId = token.familyId → Refreshed q j token' →
        (j, token') ∈ rotations p.config.history) := by
  have hsafe := families_safe hp
  have hkeeps : FamilyKeeps p.config := hsafe.keeps
  refine ⟨hkeeps.store.linear, ?_, ?_, ?_⟩
  · intro moves q hrun sid r hr hrevoked
    obtain ⟨r', hr', hk⟩ := (later_of_run hp hrun).kept sid r hr
    exact ⟨r', hr', hk.revokedAt hrevoked⟩
  · intro i j token hi hj
    exact congrArg Prod.fst (List.inj_on_of_nodup_map hkeeps.once (refreshed_rotation hp hi)
      (refreshed_rotation hp hj) rfl)
  · rintro i token ⟨limited, now, hi⟩
    obtain ⟨hdead, hversion⟩ := hsafe.post_raise hi rfl
    refine ⟨hdead.2, hversion, ?_⟩
    intro moves q hrun j token' hfam hj
    have hrot := refreshed_rotation (TransitionSystem.Reachable.of_run hp hrun) hj
    obtain ⟨es, hes, hnot⟩ := (later_of_run hp hrun).history
    rw [hes, rotations_append] at hrot
    rcases List.mem_append.mp hrot with hold | hnew
    · exact hold
    · exact absurd (hfam ▸ hdead) (hnot _ hnew)

/-- A login, a refresh of its token, and the same token once more. -/
def reuseMoves : List UserMove :=
  [.start (.login "ann" "first-secret" false 1)] ++
    calls 0 4 (sampleInput "session-1" "family-1" "jti-1") ++
  [.start (.refresh (.claims sampleToken) false 1)] ++
    calls 1 3 (sampleInput "session-2" "family-2" "jti-2") ++
  [.start (.refresh (.claims sampleToken) false 1)] ++
    calls 2 4 (sampleInput "session-3" "family-3" "jti-3")

/-- Where they lead. -/
def reusePool : UserPool := ((system sampleCodec sampleSettings).run samplePool reuseMoves).get rfl

theorem families_linear_after_reuse :
    (system sampleCodec sampleSettings).Reachable reusePool ∧
      ReuseRaised reusePool 2 sampleToken ∧ reusePool.config.store.sessions.length = 2 ∧
      ∀ r ∈ reusePool.config.store.sessions, r.tokenFamilyId = "family-1" → r.revokedAt ≠ none := by
  have hp : (system sampleCodec sampleSettings).Reachable reusePool :=
    TransitionSystem.Reachable.of_run (.init samplePool_init) (Option.some_get rfl).symm
  have hreuse : ReuseRaised reusePool 2 sampleToken := ⟨false, 1, rfl⟩
  exact ⟨hp, hreuse, rfl, ((families_linear hp).2.2.2 2 sampleToken hreuse).1⟩

end runs

end EnergyAgent.Users
