import EnergyAgent.Timeline.Repository

/-!
# What one statement does to the timeline

`Sound` is the invariant of the tables: the events of every session are numbered without gaps, and
no event id is there twice. Every statement keeps it, as long as the event that a transaction
inserts has the next number of a session that the transaction holds. `Kept` is what a transaction
may count on: the statements of the others insert nothing into a session that it holds.
-/

namespace EnergyAgent.Timeline

open EnergyAgent.Lib
open EnergyAgent.Agent (RunRow)

/-- `timeline_event_id` is injective on the sessions. -/
def DistinctIds (digest : String → String) (sessions : List String) : Prop :=
  ∀ s ∈ sessions, ∀ s' ∈ sessions, ∀ type type' key key',
    timelineEventId digest s type key = timelineEventId digest s' type' key' →
      s = s' ∧ type = type' ∧ key = key'

/-- What stands before the first separator is determined. -/
theorem append_separator_inj {α : Type} {c : α} {a a' b b' : List α} (ha : c ∉ a) (ha' : c ∉ a')
    (h : a ++ c :: b = a' ++ c :: b') : a = a' ∧ b = b' := by
  induction a generalizing a' with
  | nil =>
      cases a' with
      | nil => exact ⟨rfl, (List.cons.inj h).2⟩
      | cons x a' => exact absurd (List.cons.inj h).1 (fun heq => ha' (heq ▸ List.mem_cons_self ..))
  | cons x a ih =>
      cases a' with
      | nil => exact absurd (List.cons.inj h).1.symm (fun heq => ha (heq ▸ List.mem_cons_self ..))
      | cons x' a' =>
          obtain ⟨rfl, hrest⟩ := List.cons.inj h
          obtain ⟨rfl, rfl⟩ := ih (fun hm => ha (List.mem_cons_of_mem _ hm))
            (fun hm => ha' (List.mem_cons_of_mem _ hm)) hrest
          exact ⟨rfl, rfl⟩

/-- Session ids are UUIDs: when SHA-256 does not collide, the event ids are distinct. -/
theorem distinctIds_of_uuid {digest : String → String} {sessions : List String}
    (hdigest : Function.Injective digest) (hcolon : ∀ s ∈ sessions, ':' ∉ s.toList) :
    DistinctIds digest sessions := by
  intro s hs s' hs' type type' key key' heq
  have htext := congrArg String.toList (hdigest heq)
  have htype : ∀ t : TimelineEventType, ':' ∉ t.value.toList := by
    intro t
    cases t <;> decide
  simp only [String.toList_append, List.append_assoc] at htext
  obtain ⟨hsession, hrest⟩ := append_separator_inj (hcolon s hs) (hcolon s' hs') htext
  obtain ⟨hvalue, hkey⟩ := append_separator_inj (htype type) (htype type') hrest
  refine ⟨String.toList_inj.mp hsession, ?_, String.toList_inj.mp hkey⟩
  revert hvalue
  cases type <;> cases type' <;> decide

section invariant

variable {π : Type} {digest : String → String} {sessions : List String}

/-- The event is one that `TimelineService.create` has made. -/
def TimelineEventCreate.Made (digest : String → String) (e : TimelineEventCreate π) : Prop :=
  ∃ key, e.eventId = timelineEventId digest e.sessionId e.eventType key

theorem TimelineEvent.create_made (event : TimelineEvent π) : (event.create digest).Made digest :=
  ⟨event.key, rfl⟩

variable (digest sessions) in
structure Sound (db : Database π) : Prop where
  sessions_eq : db.sessions = sessions
  gapless : Table.Gapless (fun e : TimelineEventRecord π => e.sessionId) (·.sequence) db.events
  unique : (db.events.map (·.eventId)).Nodup
  made : ∀ e ∈ db.events, e.sessionId ∈ sessions ∧ e.toTimelineEventCreate.Made digest
  exclusive : ∀ s tx tx', (s, tx) ∈ db.locks → (s, tx') ∈ db.locks → tx = tx'
  begun : ∀ tx ∈ db.active, tx < db.begun
  held : ∀ lock ∈ db.locks, lock.2 ∈ db.active

/-- As long as the transaction goes on, its rows stay locked and their sessions get no event. -/
structure Kept (tx : Nat) (db db' : Database π) : Prop where
  active : tx ∈ db'.active → tx ∈ db.active
  locks : tx ∈ db'.active → ∀ s, (s, tx) ∈ db.locks → (s, tx) ∈ db'.locks
  events : tx ∈ db'.active → ∃ new, db'.events = db.events ++ new ∧
    ∀ e ∈ new, (e.sessionId, tx) ∉ db.locks

theorem Kept.refl (tx : Nat) (db : Database π) : Kept tx db db :=
  ⟨id, fun _ _ h => h, fun _ => ⟨[], by simp, by simp⟩⟩

theorem Sound.release {db : Database π} (h : Sound digest sessions db) (tx : Nat) :
    Sound digest sessions (db.release tx) where
  sessions_eq := h.sessions_eq
  gapless := h.gapless
  unique := h.unique
  made := h.made
  exclusive s t t' ht ht' := h.exclusive s t t' (List.mem_of_mem_filter ht) (List.mem_of_mem_filter ht')
  begun t ht := h.begun t (List.mem_of_mem_filter ht)
  held lock hlock := by
    obtain ⟨hmem, hne⟩ := List.mem_filter.mp hlock
    exact List.mem_filter.mpr ⟨h.held lock hmem, hne⟩

/-- The other transactions go on after a release. -/
theorem kept_release {db : Database π} (tx : Nat) (tx' : Nat) : Kept tx db (db.release tx') where
  active h := List.mem_of_mem_filter h
  locks h s hs := by
    obtain ⟨-, hne⟩ := List.mem_filter.mp h
    exact List.mem_filter.mpr ⟨hs, hne⟩
  events _ := ⟨[], by simp [Database.release], by simp⟩

theorem Kept.trans {tx : Nat} {db db' db'' : Database π} (h : Kept tx db db')
    (h' : Kept tx db' db'') : Kept tx db db'' where
  active hactive := h.active (h'.active hactive)
  locks hactive s hs := h'.locks hactive s (h.locks (h'.active hactive) s hs)
  events hactive := by
    obtain ⟨new, hnew, hfree⟩ := h.events (h'.active hactive)
    obtain ⟨new', hnew', hfree'⟩ := h'.events hactive
    refine ⟨new ++ new', by rw [hnew', hnew, List.append_assoc], fun e he => ?_⟩
    rcases List.mem_append.mp he with hmem | hmem
    · exact hfree e hmem
    · exact fun hlock => hfree' e hmem (h.locks (h'.active hactive) _ hlock)

/-! ## The inserts of a transaction -/

/-- An event that a transaction may insert: made by the service, and, if its session is there, the
next one of a session that the transaction holds. -/
def Next (digest : String → String) (db : Database π) (tx : Nat) (event : TimelineEventCreate π)
    (sequence : Nat) : Prop :=
  event.Made digest ∧ (event.sessionId ∈ db.sessions →
    (event.sessionId, tx) ∈ db.locks ∧ sequence = db.maxSequence event.sessionId + 1)

theorem insertRun_eq_some {db db' : Database π} {run : RunRow} (h : db.insertRun run = some db') :
    db' = { db with runs := db.runs ++ [run] } := by
  unfold Database.insertRun at h
  split at h
  · cases h
  · exact (Option.some.inj h).symm

theorem insertEvent_eq_some {db db' : Database π} {event : TimelineEventCreate π}
    {sequence createdAt : Nat} {record : TimelineEventRecord π}
    (h : db.insertEvent event sequence createdAt = some (record, db')) :
    event.sessionId ∈ db.sessions ∧ (∀ e ∈ db.events, e.eventId ≠ event.eventId) ∧
      record.toTimelineEventCreate = event ∧ record.sequence = sequence ∧
      record.createdAt = createdAt ∧
      db' = { db with events := db.events ++ [record], autoincrement := db.autoincrement + 1 } := by
  unfold Database.insertEvent at h
  split at h
  · cases h
  · next hfree =>
      push Not at hfree
      cases h
      exact ⟨hfree.1, fun e he => (hfree.2 e he).1, rfl, rfl, rfl, rfl⟩

/-- What the inserts of a transaction do. -/
inductive Inserts (db db' : Database π) :
    Option (TimelineEventCreate π × Nat × Nat) → Option (TimelineEventRecord π) → Prop
  | nothing (hevents : db'.events = db.events) : Inserts db db' none none
  | event (event : TimelineEventCreate π) (sequence createdAt : Nat) (record : TimelineEventRecord π)
      (hsession : event.sessionId ∈ db.sessions)
      (hfree : ∀ e ∈ db.events, e.eventId ≠ event.eventId)
      (hrecord : record.toTimelineEventCreate = event) (hsequence : record.sequence = sequence)
      (htime : record.createdAt = createdAt) (hevents : db'.events = db.events ++ [record]) :
      Inserts db db' (some (event, sequence, createdAt)) (some record)

/-- Neither the sessions nor the transactions change. -/
structure SameTransactions (db db' : Database π) : Prop where
  sessions : db'.sessions = db.sessions
  locks : db'.locks = db.locks
  active : db'.active = db.active
  begun : db'.begun = db.begun

theorem insert_eq_some {db db' : Database π} {run : Option RunRow}
    {event : Option (TimelineEventCreate π × Nat × Nat)}
    {record : Option (TimelineEventRecord π)} (h : db.insert run event = some (record, db')) :
    SameTransactions db db' ∧ Inserts db db' event record := by
  obtain ⟨db₁, hrun, hevent⟩ := Option.bind_eq_some_iff.mp h
  have hsame : ∃ runs, db₁ = { db with runs := runs } := by
    cases run with
    | none => exact ⟨db.runs, (Option.some.inj hrun).symm⟩
    | some run => exact ⟨_, insertRun_eq_some hrun⟩
  obtain ⟨runs, rfl⟩ := hsame
  cases event with
  | none =>
      cases hevent
      exact ⟨⟨rfl, rfl, rfl, rfl⟩, .nothing rfl⟩
  | some event =>
      obtain ⟨event, sequence, createdAt⟩ := event
      obtain ⟨⟨record, db₂⟩, hinsert, heq⟩ := Option.map_eq_some_iff.mp hevent
      cases heq
      obtain ⟨hsession, hfree, hrecord, hsequence, htime, rfl⟩ := insertEvent_eq_some hinsert
      exact ⟨⟨rfl, rfl, rfl, rfl⟩, .event _ _ _ _ hsession hfree hrecord hsequence htime rfl⟩

/-- The next event of a session may be inserted. -/
theorem Sound.insert {db db' : Database π} (h : Sound digest sessions db)
    {event : Option (TimelineEventCreate π × Nat × Nat)} {record : Option (TimelineEventRecord π)}
    (hnext : ∀ e n t, event = some (e, n, t) → e.Made digest ∧
      (e.sessionId ∈ db.sessions → n = db.maxSequence e.sessionId + 1))
    (hsame : SameTransactions db db') (hinsert : Inserts db db' event record) :
    Sound digest sessions db' := by
  have hcontrol : db'.sessions = sessions ∧
      (∀ s tx tx', (s, tx) ∈ db'.locks → (s, tx') ∈ db'.locks → tx = tx') ∧
      (∀ tx ∈ db'.active, tx < db'.begun) ∧ ∀ lock ∈ db'.locks, lock.2 ∈ db'.active := by
    rw [hsame.sessions, hsame.locks, hsame.active, hsame.begun]
    exact ⟨h.sessions_eq, h.exclusive, h.begun, h.held⟩
  obtain ⟨hsessions, hexclusive, hbegun, hheld⟩ := hcontrol
  cases hinsert with
  | nothing hevents =>
      exact ⟨hsessions, hevents ▸ h.gapless, hevents ▸ h.unique, hevents ▸ h.made, hexclusive,
        hbegun, hheld⟩
  | event event sequence createdAt record hsession hfree hrecord hsequence _ hevents =>
      obtain ⟨hmade, hnumber⟩ := hnext event sequence createdAt rfl
      subst hrecord
      refine ⟨hsessions, ?_, ?_, ?_, hexclusive, hbegun, hheld⟩
      · rw [hevents]
        exact h.gapless.concat (hsequence.trans (hnumber hsession))
      · rw [hevents, List.map_append, List.nodup_append]
        refine ⟨h.unique, List.nodup_singleton _, ?_⟩
        rintro id hid _ hlast rfl
        obtain ⟨e, he, rfl⟩ := List.mem_map.mp hid
        exact hfree e he (List.mem_singleton.mp hlast)
      · intro e he
        rw [hevents] at he
        rcases List.mem_append.mp he with hold | hlast
        · exact h.made e hold
        · rw [List.mem_singleton.mp hlast]
          exact ⟨h.sessions_eq ▸ hsession, hmade⟩

/-! ## One statement -/

/-- The statement inserts no event but the next one of a session that its transaction holds. -/
def Op.InsertsNext (digest : String → String) (db : Database π) : Op π → Prop
  | .commit tx _ (some (event, sequence, _)) => Next digest db tx event sequence
  | _ => True

/-- A commit, with what it has inserted, or refused. -/
theorem exec_commit {db db' : Database π} {tx now : Nat} {run : Option RunRow}
    {event : Option (TimelineEventCreate π × Nat × Nat)}
    {a : Option (Option (TimelineEventRecord π))}
    (h : exec (.commit tx run event) now db = some (a, db')) : tx ∈ db.active ∧
      ((a = none ∧ (db.release tx).insert run event = none ∧ db' = db.release tx) ∨
        ∃ record, a = some record ∧ SameTransactions (db.release tx) db' ∧
          Inserts (db.release tx) db' event record) := by
  simp only [exec] at h
  split at h
  · cases h
  · next hactive =>
      refine ⟨not_not.mp hactive, ?_⟩
      split at h
      · next record db₁ hinsert =>
          cases h
          obtain ⟨hsame, hinserts⟩ := insert_eq_some hinsert
          exact Or.inr ⟨record, rfl, hsame, hinserts⟩
      · next hrefused =>
          cases h
          exact Or.inl ⟨rfl, hrefused, rfl⟩

theorem exec_lock {db db' : Database π} {tx now : Nat} {sessionId : String} {a : Unit}
    (h : exec (.lockSession tx sessionId) now db = some (a, db')) : tx ∈ db.active ∧
      (∀ lock ∈ db.locks, lock.1 = sessionId → lock.2 = tx) ∧
      db' = if sessionId ∈ db.sessions then
        { db with locks := (sessionId, tx) :: db.locks } else db := by
  simp only [exec] at h
  split at h
  · cases h
  · next hfree =>
      push Not at hfree
      cases h
      exact ⟨hfree.1, hfree.2, rfl⟩

theorem lock_taken {db db' : Database π} {tx now : Nat} {sessionId : String} {a : Unit}
    (h : exec (.lockSession tx sessionId) now db = some (a, db')) (hs : sessionId ∈ db.sessions) :
    (sessionId, tx) ∈ db'.locks := by
  obtain ⟨-, -, rfl⟩ := exec_lock h
  rw [if_pos hs]
  exact List.mem_cons_self ..

theorem exec_maxSequence {db db' : Database π} {tx now a : Nat} {sessionId : String}
    (h : exec (.maxSequence tx sessionId) now db = some (a, db')) :
    tx ∈ db.active ∧ a = db.maxSequence sessionId ∧ db' = db := by
  simp only [exec] at h
  split at h
  · cases h
  · next hactive =>
      cases h
      exact ⟨not_not.mp hactive, rfl, rfl⟩

theorem exec_findEvent {db db' : Database π} {tx now : Nat} {eventId : String}
    {a : Option (TimelineEventRecord π)}
    (h : exec (.findEvent tx eventId) now db = some (a, db')) :
    tx ∈ db.active ∧ a = db.events.find? (fun e => e.eventId = eventId) ∧ db' = db := by
  simp only [exec] at h
  split at h
  · cases h
  · next hactive =>
      cases h
      exact ⟨not_not.mp hactive, rfl, rfl⟩

/-- **Every statement keeps the tables sound.** -/
theorem exec_sound {op : Op π} {db db' : Database π} {now : Nat} {a : Ans π op}
    (h : Sound digest sessions db) (hnext : op.InsertsNext digest db)
    (hexec : exec op now db = some (a, db')) : Sound digest sessions db' := by
  cases op with
  | utcNow =>
      cases hexec
      exact h
  | begin =>
      cases hexec
      refine { h with begun := ?_, held := fun lock hlock => List.mem_cons_of_mem _ (h.held lock hlock) }
      intro tx htx
      rcases List.mem_cons.mp htx with rfl | hold
      · exact Nat.lt_succ_self _
      · exact Nat.lt_succ_of_lt (h.begun tx hold)
  | lockSession tx sessionId =>
      obtain ⟨hactive, hfree, rfl⟩ := exec_lock hexec
      split
      · refine { h with exclusive := ?_, held := ?_ }
        · intro s t t' ht ht'
          rcases List.mem_cons.mp ht with heq | hold <;> rcases List.mem_cons.mp ht' with heq' | hold'
          · cases heq
            cases heq'
            rfl
          · cases heq
            exact (hfree _ hold' rfl).symm
          · cases heq'
            exact hfree _ hold rfl
          · exact h.exclusive s t t' hold hold'
        · intro lock hlock
          rcases List.mem_cons.mp hlock with rfl | hold
          · exact hactive
          · exact h.held lock hold
      · exact h
  | findEvent tx eventId | maxSequence tx sessionId =>
      simp only [exec] at hexec
      split at hexec
      · cases hexec
      · cases hexec
        exact h
  | commit tx run event =>
      obtain ⟨hactive, ⟨-, -, rfl⟩ | ⟨record, -, hsame, hinserts⟩⟩ := exec_commit hexec
      · exact h.release tx
      · refine (h.release tx).insert (fun e n t he => ?_) hsame hinserts
        subst he
        exact ⟨hnext.1, fun hsession => (hnext.2 hsession).2⟩
  | kill tx =>
      cases hexec
      exact h.release tx

/-- **What a statement does to the events**: nothing, or it is a commit that adds one. -/
theorem exec_inserts {op : Op π} {db db' : Database π} {now : Nat} {a : Ans π op}
    (hexec : exec op now db = some (a, db')) : db'.events = db.events ∨
      ∃ tx run event sequence createdAt record, op = .commit tx run (some (event, sequence, createdAt)) ∧
        event.sessionId ∈ db.sessions ∧ record.toTimelineEventCreate = event ∧
        record.createdAt = createdAt ∧ db'.events = db.events ++ [record] := by
  cases op with
  | utcNow | begin | kill =>
      cases hexec
      exact Or.inl rfl
  | lockSession tx sessionId =>
      obtain ⟨-, -, rfl⟩ := exec_lock hexec
      left
      split <;> rfl
  | findEvent tx eventId =>
      obtain ⟨-, -, rfl⟩ := exec_findEvent hexec
      exact Or.inl rfl
  | maxSequence tx sessionId =>
      obtain ⟨-, -, rfl⟩ := exec_maxSequence hexec
      exact Or.inl rfl
  | commit tx run event =>
      obtain ⟨-, ⟨-, -, rfl⟩ | ⟨record, -, -, hinserts⟩⟩ := exec_commit hexec
      · exact Or.inl rfl
      · cases hinserts with
        | nothing hevents => exact Or.inl hevents
        | event event n t record hsession _ hrecord _ htime hevents =>
            exact Or.inr ⟨tx, run, event, n, t, record, rfl, hsession, hrecord, htime, hevents⟩

/-- Committed events stay as they are. -/
theorem exec_events {op : Op π} {db db' : Database π} {now : Nat} {a : Ans π op}
    (hexec : exec op now db = some (a, db')) : db.events <+: db'.events := by
  rcases exec_inserts hexec with hsame | ⟨_, _, _, _, _, record, _, _, _, _, hevents⟩
  · exact hsame ▸ List.prefix_rfl
  · exact ⟨[record], hevents.symm⟩

theorem exec_begun {op : Op π} {db db' : Database π} {now : Nat} {a : Ans π op}
    (hexec : exec op now db = some (a, db')) : db.begun ≤ db'.begun := by
  cases op with
  | begin =>
      cases hexec
      exact Nat.le_succ _
  | utcNow | kill =>
      cases hexec
      exact le_rfl
  | lockSession tx sessionId =>
      obtain ⟨-, -, rfl⟩ := exec_lock hexec
      split <;> exact le_rfl
  | findEvent tx eventId | maxSequence tx sessionId =>
      simp only [exec] at hexec
      split at hexec
      · cases hexec
      · cases hexec
        exact le_rfl
  | commit tx run event =>
      obtain ⟨-, ⟨-, -, rfl⟩ | ⟨record, -, hsame, -⟩⟩ := exec_commit hexec
      · exact le_rfl
      · exact (hsame.begun.trans rfl).ge

/-- **A transaction keeps its sessions**: the statements of the others neither take a row from it
nor insert an event into a session that it holds. -/
theorem exec_kept {op : Op π} {db db' : Database π} {now tx : Nat} {a : Ans π op}
    (h : Sound digest sessions db) (hnext : op.InsertsNext digest db) (hother : op.tx ≠ some tx)
    (hbegun : tx < db.begun) (hexec : exec op now db = some (a, db')) : Kept tx db db' := by
  cases op with
  | utcNow =>
      cases hexec
      exact .refl tx db
  | begin =>
      cases hexec
      refine ⟨fun hactive => ?_, fun _ _ hlock => hlock, fun _ => ⟨[], by simp, by simp⟩⟩
      rcases List.mem_cons.mp hactive with rfl | hold
      · exact absurd hbegun (Nat.lt_irrefl _)
      · exact hold
  | lockSession tx' sessionId =>
      obtain ⟨-, -, rfl⟩ := exec_lock hexec
      split
      · exact ⟨id, fun _ _ hlock => List.mem_cons_of_mem _ hlock, fun _ => ⟨[], by simp, by simp⟩⟩
      · exact .refl tx db
  | findEvent tx' eventId | maxSequence tx' sessionId =>
      simp only [exec] at hexec
      split at hexec
      · cases hexec
      · cases hexec
        exact .refl tx db
  | commit tx' run event =>
      have hne : tx' ≠ tx := fun heq => hother (congrArg some heq)
      obtain ⟨-, ⟨-, -, rfl⟩ | ⟨record, -, hsame, hinserts⟩⟩ := exec_commit hexec
      · exact kept_release tx tx'
      · refine (kept_release tx tx').trans ⟨fun hactive => hsame.active ▸ hactive,
          fun _ s hlock => hsame.locks ▸ hlock, fun _ => ?_⟩
        cases hinserts with
        | nothing hevents => exact ⟨[], by simp [hevents], by simp⟩
        | event event sequence createdAt record hsession _ hrecord _ _ hevents =>
            refine ⟨[record], hevents, fun e he hlock => hne ?_⟩
            obtain ⟨hheld, -⟩ := hnext.2 hsession
            rw [List.mem_singleton.mp he, hrecord] at hlock
            exact h.exclusive _ _ _ hheld (List.mem_of_mem_filter hlock)
  | kill tx' =>
      cases hexec
      exact kept_release tx tx'

/-- Only an open transaction makes statements. -/
theorem exec_active {op : Op π} {db db' : Database π} {now tx : Nat} {a : Ans π op}
    (h : exec op now db = some (a, db')) (htx : op.tx = some tx) : tx ∈ db.active := by
  cases op with
  | utcNow | begin | kill => cases htx
  | lockSession =>
      cases htx
      exact (exec_lock h).1
  | commit =>
      cases htx
      exact (exec_commit h).1
  | findEvent | maxSequence =>
      cases htx
      simp only [exec] at h
      split at h
      · cases h
      · next hactive => exact not_not.mp hactive

/-- The event of a held session whose id is not there is inserted. -/
theorem commit_accepted {db db' : Database π} {tx now createdAt : Nat} {event : TimelineEventCreate π}
    {a : Option (Option (TimelineEventRecord π))} (h : Sound digest sessions db)
    (hs : event.sessionId ∈ sessions) (hfree : ∀ e ∈ db.events, e.eventId ≠ event.eventId)
    (hexec : exec (.commit tx none (some (event, db.maxSequence event.sessionId + 1, createdAt))) now
      db = some (a, db')) : a.isSome := by
  obtain ⟨-, ⟨-, hrefused, -⟩ | ⟨record, rfl, -⟩⟩ := exec_commit hexec
  · exfalso
    have hinsert : (db.release tx).insertEvent event (db.maxSequence event.sessionId + 1)
        createdAt = none := Option.map_eq_none_iff.mp hrefused
    unfold Database.insertEvent at hinsert
    split at hinsert
    · next hbad =>
        rcases hbad with hsession | ⟨e, he, hid | ⟨hsession, hsequence⟩⟩
        · exact hsession (h.sessions_eq ▸ hs)
        · exact hfree e he hid
        · refine h.gapless.next_free he ?_
          rw [hsession]
          exact hsequence
    · cases hinsert
  · rfl

/-- What a commit with an event returns is the event, there. -/
theorem commit_returns {db db' : Database π} {tx now sequence createdAt : Nat} {run : Option RunRow}
    {event : TimelineEventCreate π} {a : Option (Option (TimelineEventRecord π))}
    (hexec : exec (.commit tx run (some (event, sequence, createdAt))) now db = some (a, db')) :
    a = none ∨ ∃ record, a = some (some record) ∧ record ∈ db'.events ∧
      record.toTimelineEventCreate = event := by
  obtain ⟨-, ⟨rfl, -, -⟩ | ⟨record, rfl, -, hinserts⟩⟩ := exec_commit hexec
  · exact Or.inl rfl
  · cases hinserts with
    | event _ _ _ record _ _ hrecord _ _ hevents =>
        exact Or.inr ⟨record, rfl, hevents ▸ List.mem_append_right _ (List.mem_singleton_self _),
          hrecord⟩

/-- An `append` inserts its own event and no other. -/
def Request.Inserts (digest : String → String) : Request π → Op π → Prop
  | .append event, .commit _ _ (some (payload, _, _)) => payload = event.create digest
  | _, _ => True

/-- A statement of an `append` whose event is there inserts nothing. -/
theorem exec_append {op : Op π} {db db' : Database π} {now : Nat} {a : Ans π op}
    {event : TimelineEvent π} (huses : (Request.append event).Inserts digest op)
    (hthere : ∃ e ∈ db.events, e.eventId = (event.create digest).eventId)
    (hexec : exec op now db = some (a, db')) : db'.events = db.events := by
  cases op with
  | utcNow | begin | kill =>
      cases hexec
      rfl
  | lockSession tx sessionId =>
      obtain ⟨-, -, rfl⟩ := exec_lock hexec
      split <;> rfl
  | findEvent tx eventId => rw [(exec_findEvent hexec).2.2]
  | maxSequence tx sessionId => rw [(exec_maxSequence hexec).2.2]
  | commit tx run inserted =>
      obtain ⟨-, ⟨-, -, rfl⟩ | ⟨record, -, -, hinserts⟩⟩ := exec_commit hexec
      · rfl
      · cases hinserts with
        | nothing hevents => exact hevents
        | event payload sequence createdAt record _ hfree _ _ _ _ =>
            obtain ⟨e, he, hid⟩ := hthere
            have hpayload : payload = event.create digest := huses
            exact absurd (hpayload ▸ hid) (hfree e he)

end invariant

end EnergyAgent.Timeline
