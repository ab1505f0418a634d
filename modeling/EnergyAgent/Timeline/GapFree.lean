import EnergyAgent.Timeline.Statements

/-!
# The timeline has no gaps

Whatever the writers do at the same time, the events of a session are numbered 1, 2, ... in the
order in which they are committed, every event id is there once, and an event that is there stays
as it is. An `append` of an event that is there returns it and writes nothing.

Every writer promises the others to keep their transactions, and relies on them to keep its own
(`discipline`). When the clock runs forward and every writer is on time (`Op.OnTime`), the events of a
session have been committed in the order of their times.
-/

namespace EnergyAgent.Timeline

open EnergyAgent.Lib
open EnergyAgent.Agent (RunRow)

section invariant

variable {π : Type} {digest : String → String} {sessions : List String} {timely : Prop}

/-! ## What the writers promise each other -/

abbrev TimelineConfig (π : Type) := Config (database π) (Request π)

/-- The transaction is one that writer `i` has begun. -/
def Began (c : TimelineConfig π) (i tx : Nat) : Prop :=
  ∃ r, ⟨i, r, (Op.begin : Op π), tx⟩ ∈ c.history

/-- The time is one that writer `i` has read. -/
def HasRead (c : TimelineConfig π) (i t : Nat) : Prop :=
  ∃ r, ⟨i, r, (Op.utcNow : Op π), t⟩ ∈ c.history

/-- No event of the session has a later time. -/
def NoneAfter (c : TimelineConfig π) (sessionId : String) (t : Nat) : Prop :=
  ∀ e ∈ c.store.events, e.sessionId = sessionId → e.createdAt ≤ t

/-- What an event of the history has read from the clock. -/
def clockReading (event : Event (database π) (Request π)) : Option Nat :=
  match event with
  | ⟨_, _, .utcNow, t⟩ => some t
  | _ => none

/-- The clock has not gone backwards. -/
def ClockRuns (history : List (Event (database π) (Request π))) : Prop :=
  (history.filterMap clockReading).Pairwise (· ≤ ·)

/-- The events of a session have been committed in the order of their times. -/
def Chronological (events : List (TimelineEventRecord π)) : Prop :=
  events.Pairwise fun e e' => e.sessionId = e'.sessionId → e.createdAt ≤ e'.createdAt

/-- A writer that gets the row of a session has not read the clock before the last event of the
session has. -/
def Op.OnTime (c : TimelineConfig π) : Op π → Prop
  | .lockSession tx sessionId => ∀ i t, Began c i tx → HasRead c i t → NoneAfter c sessionId t
  | _ => True

variable (digest sessions timely) in
/-- The tables are sound, every transaction has one writer, and every event the time of one. -/
structure Keeps (c : TimelineConfig π) : Prop where
  sound : Sound digest sessions c.store
  drawn : ∀ i tx, Began c i tx → tx < c.store.begun
  owner : ∀ i j tx, Began c i tx → Began c j tx → i = j
  stamped : ∀ e ∈ c.store.events, ∃ i, HasRead c i e.createdAt
  chronological : timely → ClockRuns c.history → Chronological c.store.events

/-- Events are only added, and the transactions of the writers `who` are kept. -/
structure Later (who : Nat → Prop) (c d : TimelineConfig π) : Prop where
  events : c.store.events <+: d.store.events
  history : c.history <+: d.history
  kept : ∀ i tx, who i → Began c i tx → Kept tx c.store d.store

section history

variable {i : Nat} {c d : TimelineConfig π}

theorem Began.mono {tx : Nat} (h : Began c i tx) (hpre : c.history <+: d.history) :
    Began d i tx := by
  obtain ⟨r, hmem⟩ := h
  exact ⟨r, hpre.subset hmem⟩

theorem HasRead.mono {t : Nat} (h : HasRead c i t) (hpre : c.history <+: d.history) :
    HasRead d i t := by
  obtain ⟨r, hmem⟩ := h
  exact ⟨r, hpre.subset hmem⟩

theorem ClockRuns.of_prefix {history history' : List (Event (database π) (Request π))}
    (h : ClockRuns history') (hpre : history <+: history') : ClockRuns history :=
  List.Pairwise.sublist (hpre.sublist.filterMap _) h

/-- No event has a later time than the last that has been read. -/
theorem noneAfter_of_read {r : Request π} {t : Nat}
    (hstamped : ∀ e ∈ d.store.events, ∃ j, HasRead c j e.createdAt)
    (hhist : d.history = c.history ++ [⟨i, r, (Op.utcNow : Op π), t⟩]) (hclock : ClockRuns d.history)
    (sessionId : String) : NoneAfter d sessionId t := by
  intro e he _
  obtain ⟨j, r', hmem⟩ := hstamped e he
  have hread : e.createdAt ∈ c.history.filterMap clockReading :=
    List.mem_filterMap.mpr ⟨_, hmem, rfl⟩
  have hpair : (c.history.filterMap clockReading ++ [t]).Pairwise (· ≤ ·) := by
    unfold ClockRuns at hclock
    rwa [hhist, List.filterMap_append] at hclock
  exact (List.pairwise_append.mp hpair).2.2 _ hread t (List.mem_singleton_self t)

end history

theorem Later.refl (who : Nat → Prop) (c : TimelineConfig π) : Later who c c :=
  ⟨List.prefix_rfl, List.prefix_rfl, fun _ _ _ _ => .refl _ _⟩

theorem Later.trans {who : Nat → Prop} {c d e : TimelineConfig π} (h : Later who c d)
    (h' : Later who d e) : Later who c e :=
  ⟨h.events.trans h'.events, h.history.trans h'.history,
    fun i tx hi hc => (h.kept i tx hi hc).trans (h'.kept i tx hi (hc.mono h.history))⟩

variable (digest sessions timely) in
/-- Every writer keeps the transactions of the others, and relies on the others to keep its own. When
`timely`, the writers are on time. -/
def discipline : Discipline (database π) (Request π) where
  keeps := Keeps digest sessions timely
  guar i := Later (· ≠ i)
  rely i _ := Later (· = i)
  may _ op c := timely → op.OnTime c
  refl _ _ := .refl _
  trans _ _ _ _ _ h h' := h.trans h'

section call

variable {i : Nat} {r : Request π} {op : Op π} {now : Nat} {a : Ans π op} {c d : TimelineConfig π}

theorem began_of_exec {j tx : Nat} (hexec : c.exec i r op now = some (a, d)) (h : Began d j tx) :
    Began c j tx ∨ (j = i ∧ op = .begin ∧ tx = c.store.begun) := by
  obtain ⟨hstore, hhist⟩ := Config.exec_eq_some hexec
  obtain ⟨r', hmem⟩ := h
  rw [hhist] at hmem
  rcases List.mem_append.mp hmem with hold | hlast
  · exact Or.inl ⟨r', hold⟩
  · have heq := List.mem_singleton.mp hlast
    cases heq
    have hans : c.store.begun = tx := congrArg Prod.fst (Option.some.inj hstore)
    exact Or.inr ⟨rfl, rfl, hans.symm⟩

variable (timely) in
/-- The time of an event that the statement inserts has been read by a writer, and no event of the
session has a later one. -/
def Op.InsertsLast (c : TimelineConfig π) : Op π → Prop
  | .commit _ _ (some (event, _, t)) => (∃ i, HasRead c i t) ∧
      (event.sessionId ∈ c.store.sessions → timely → ClockRuns c.history →
        NoneAfter c event.sessionId t)
  | _ => True

/-- Every event has a time that was read, and the times are in order. -/
theorem exec_times (hk : Keeps digest sessions timely c) (hlast : op.InsertsLast timely c)
    (hexec : c.exec i r op now = some (a, d)) :
    (∀ e ∈ d.store.events, ∃ j, HasRead d j e.createdAt) ∧
      (timely → ClockRuns d.history → Chronological d.store.events) := by
  obtain ⟨hstore, hhist⟩ := Config.exec_eq_some hexec
  have hpre : c.history <+: d.history := ⟨_, hhist.symm⟩
  rcases exec_inserts hstore with
    hsame | ⟨tx, run, event, n, t, record, rfl, hsession, hrecord, htime, hevents⟩
  · rw [hsame]
    refine ⟨fun e he => ?_, fun ht hclock => hk.chronological ht (hclock.of_prefix hpre)⟩
    obtain ⟨j, hread⟩ := hk.stamped e he
    exact ⟨j, hread.mono hpre⟩
  · obtain ⟨⟨j, hread⟩, hnone⟩ := hlast
    rw [hevents]
    refine ⟨fun e he => ?_, fun ht hclock => ?_⟩
    · rcases List.mem_append.mp he with hold | hnew
      · obtain ⟨j', hread'⟩ := hk.stamped e hold
        exact ⟨j', hread'.mono hpre⟩
      · rw [List.mem_singleton.mp hnew, htime]
        exact ⟨j, hread.mono hpre⟩
    · have hclock' : ClockRuns c.history := hclock.of_prefix hpre
      refine List.pairwise_append.mpr
        ⟨hk.chronological ht hclock', List.pairwise_singleton _ _, fun e he e' he' heq => ?_⟩
      obtain rfl := List.mem_singleton.mp he'
      rw [htime]
      rw [hrecord] at heq
      exact hnone hsession ht hclock' e he heq

/-- **Every statement of a transaction of its own** keeps the invariant and the promise. -/
theorem call_keeps (hk : Keeps digest sessions timely c) (hown : ∀ tx ∈ op.tx, Began c i tx)
    (hnext : op.InsertsNext digest c.store) (hlast : op.InsertsLast timely c)
    (hexec : c.exec i r op now = some (a, d)) :
    Keeps digest sessions timely d ∧ Later (· ≠ i) c d := by
  obtain ⟨hstore, hhist⟩ := Config.exec_eq_some hexec
  obtain ⟨hstamped, hchronological⟩ := exec_times hk hlast hexec
  refine ⟨⟨exec_sound hk.sound hnext hstore, fun j tx hj => ?_, fun j k tx hj hk' => ?_, hstamped,
    hchronological⟩, ⟨exec_events hstore, ⟨_, hhist.symm⟩, fun j tx hj hbegan => ?_⟩⟩
  · rcases began_of_exec hexec hj with hold | ⟨rfl, rfl, rfl⟩
    · exact (hk.drawn j tx hold).trans_le (exec_begun hstore)
    · have hbegun : _ = d.store := congrArg Prod.snd (Option.some.inj hstore)
      rw [← hbegun]
      exact Nat.lt_succ_self _
  · rcases began_of_exec hexec hj with hold | ⟨rfl, -, rfl⟩ <;>
      rcases began_of_exec hexec hk' with hold' | ⟨rfl, -, hfresh⟩
    · exact hk.owner j k tx hold hold'
    · exact absurd (hk.drawn j tx hold) (hfresh ▸ Nat.lt_irrefl _)
    · exact absurd (hk.drawn k _ hold') (Nat.lt_irrefl _)
    · rfl
  · refine exec_kept hk.sound hnext (fun htx => hj ?_) (hk.drawn j tx hbegan) hstore
    exact hk.owner j i tx hbegan (hown tx htx)

end call

/-! ## The programs -/

section safe

variable {i : Nat} {r : Request π} {c : TimelineConfig π} {α : Type}
  {post : Except TimelineError α → TimelineConfig π → Prop}

/-- A statement of a transaction of the writer's own. -/
theorem safe_ask {op : Op π} {f : Ans π op → Call π α}
    (hop : ∀ d, Later (· = i) c d → Keeps digest sessions timely d →
      (∀ tx, op.tx = some tx → tx ∈ d.store.active) →
      (∀ tx, op.tx = some tx → Began d i tx) ∧ op.InsertsNext digest d.store ∧
        op.InsertsLast timely d)
    (h : ∀ d now a e, Later (· = i) c d → Keeps digest sessions timely d →
      (timely → op.OnTime d) → exec op now d.store = some (a, e.store) →
      Keeps digest sessions timely e → e.history = d.history ++ [⟨i, r, op, a⟩] →
      (f a).Safe (discipline digest sessions timely) i r post e) :
    (ask op >>= f).Safe (discipline digest sessions timely) i r post c := by
  intro d now a e hrely hk hmay hexec
  obtain ⟨hstore, hhist⟩ := Config.exec_eq_some hexec
  obtain ⟨hown, hnext, hlast⟩ := hop d hrely hk fun tx htx => exec_active hstore htx
  obtain ⟨hkeeps, hguar⟩ := call_keeps hk (fun tx htx => hown tx htx) hnext hlast hexec
  exact ⟨hkeeps, hguar, h d now a e hrely hk hmay hstore hkeeps hhist⟩

variable {tx : Nat} {sessionId : String} {d : TimelineConfig π}

variable (sessions) in
/-- Transaction `tx` of writer `i` holds the row of the session, if there is one, until it is over. -/
structure Holds (i tx : Nat) (sessionId : String) (c : TimelineConfig π) : Prop where
  began : Began c i tx
  locked : tx ∈ c.store.active → sessionId ∈ sessions → (sessionId, tx) ∈ c.store.locks

variable (sessions) in
/-- As long as the transaction has gone on since `c`, the session has got no event. -/
structure Undisturbed (tx : Nat) (sessionId : String) (c d : TimelineConfig π) : Prop where
  history : c.history <+: d.history
  active : tx ∈ d.store.active → tx ∈ c.store.active
  maxSequence : tx ∈ d.store.active → sessionId ∈ sessions →
    d.store.maxSequence sessionId = c.store.maxSequence sessionId
  events : tx ∈ d.store.active → sessionId ∈ sessions →
    ∀ e ∈ d.store.events, e.sessionId = sessionId → e ∈ c.store.events

theorem Undisturbed.trans {e : TimelineConfig π} (h : Undisturbed sessions tx sessionId c d)
    (h' : Undisturbed sessions tx sessionId d e) : Undisturbed sessions tx sessionId c e where
  history := h.history.trans h'.history
  active ha := h.active (h'.active ha)
  maxSequence ha hs := (h'.maxSequence ha hs).trans (h.maxSequence (h'.active ha) hs)
  events ha hs ev hev hsession :=
    h.events (h'.active ha) hs ev (h'.events ha hs ev hev hsession) hsession

theorem Undisturbed.of_store (hstore : d.store = c.store) (hpre : c.history <+: d.history) :
    Undisturbed sessions tx sessionId c d where
  history := hpre
  active ha := hstore ▸ ha
  maxSequence _ _ := by rw [hstore]
  events _ _ e he _ := hstore ▸ he

theorem Undisturbed.noneAfter (h : Undisturbed sessions tx sessionId c d)
    (hactive : tx ∈ d.store.active) (hs : sessionId ∈ sessions) {t : Nat}
    (hnone : NoneAfter c sessionId t) : NoneAfter d sessionId t :=
  fun e he hsession => hnone e (h.events hactive hs e he hsession) hsession

theorem Holds.later (h : Holds sessions i tx sessionId c) (hl : Later (· = i) c d) :
    Holds sessions i tx sessionId d where
  began := h.began.mono hl.history
  locked ha hs :=
    have hkept := hl.kept i tx rfl h.began
    hkept.locks ha _ (h.locked (hkept.active ha) hs)

/-- A held session gets no event from the others. -/
theorem Holds.undisturbed (h : Holds sessions i tx sessionId c) (hl : Later (· = i) c d) :
    Undisturbed sessions tx sessionId c d := by
  have hkept := hl.kept i tx rfl h.began
  have hothers : tx ∈ d.store.active → sessionId ∈ sessions →
      ∃ new, d.store.events = c.store.events ++ new ∧ ∀ e ∈ new, e.sessionId ≠ sessionId := by
    intro ha hs
    obtain ⟨new, hnew, hfree⟩ := hkept.events ha
    refine ⟨new, hnew, fun e he heq => hfree e he ?_⟩
    rw [heq]
    exact h.locked (hkept.active ha) hs
  refine ⟨hl.history, hkept.active, fun ha hs => ?_, fun ha hs e he hsession => ?_⟩
  · obtain ⟨new, hnew, hother⟩ := hothers ha hs
    unfold Database.maxSequence Table.maxNumber
    rw [hnew, Table.numbers_append_of_ne hother]
  · obtain ⟨new, hnew, hother⟩ := hothers ha hs
    rw [hnew] at he
    rcases List.mem_append.mp he with hold | hlast
    · exact hold
    · exact absurd hsession (hother e hlast)

/-- A statement of transaction `tx` that changes nothing. -/
def Op.Queries (tx : Nat) : Op π → Prop
  | .utcNow => True
  | .findEvent tx' _ | .maxSequence tx' _ => tx' = tx
  | _ => False

/-- While its transaction holds the session, the writer asks something. -/
theorem safe_query {op : Op π} {f : Ans π op → Call π α}
    (hholds : Holds sessions i tx sessionId c) (hop : op.Queries tx)
    (h : ∀ d now a e, Keeps digest sessions timely d → exec op now d.store = some (a, e.store) →
      e.store = d.store → e.history = d.history ++ [⟨i, r, op, a⟩] →
      Holds sessions i tx sessionId e → Undisturbed sessions tx sessionId c e →
      (f a).Safe (discipline digest sessions timely) i r post e) :
    (ask op >>= f).Safe (discipline digest sessions timely) i r post c := by
  refine safe_ask ?_ ?_
  · intro d hl _ _
    have hbegan := hholds.began.mono hl.history
    cases op with
    | utcNow => exact ⟨by rintro _ ⟨⟩, trivial, trivial⟩
    | findEvent tx' eventId | maxSequence tx' sessionId' =>
        obtain rfl : tx' = tx := hop
        refine ⟨?_, trivial, trivial⟩
        rintro _ ⟨⟩
        exact hbegan
    | begin | lockSession | commit | kill => exact hop.elim
  · intro d now a e hl hk _ hexec _ hhist
    have hstore : e.store = d.store := by
      cases op with
      | utcNow => exact (congrArg Prod.snd (Option.some.inj hexec)).symm
      | findEvent => exact (exec_findEvent hexec).2.2
      | maxSequence => exact (exec_maxSequence hexec).2.2
      | begin | lockSession | commit | kill => exact hop.elim
    have hpre : d.history <+: e.history := ⟨_, hhist.symm⟩
    have hd := hholds.later hl
    refine h d now a e hk hexec hstore hhist ⟨hd.began.mono hpre, ?_⟩
      ((hholds.undisturbed hl).trans (.of_store hstore hpre))
    rw [hstore]
    exact hd.locked

/-- Both writers begin so: the transaction takes the row of the session. When they are on time, the
times that the writer has read before are not before the last event. -/
theorem safe_lock {f : Nat → Call π α}
    (h : ∀ tx e, Holds sessions i tx sessionId e → c.history <+: e.history →
      (timely → ∀ t, HasRead c i t → NoneAfter e sessionId t) →
      (f tx).Safe (discipline digest sessions timely) i r post e) :
    (ask .begin >>= fun tx => ask (.lockSession tx sessionId) >>= fun _ => f tx).Safe
      (discipline digest sessions timely) i r post c := by
  refine safe_ask ?_ ?_
  · intro d _ _ _
    exact ⟨by rintro _ ⟨⟩, trivial, trivial⟩
  intro d now tx e hl _ _ _ _ hhist
  have hbegan : Began e i tx := ⟨r, by rw [hhist]; simp⟩
  have hpre : c.history <+: e.history := hl.history.trans ⟨_, hhist.symm⟩
  refine safe_ask ?_ ?_
  · intro d' hl' _ _
    refine ⟨?_, trivial, trivial⟩
    rintro tx' heq
    cases heq
    exact hbegan.mono hl'.history
  · intro d' now' a e' hl' hk' hmay hexec _ hhist'
    have hpre' : d'.history <+: e'.history := ⟨_, hhist'.symm⟩
    have hbegan' : Began d' i tx := hbegan.mono hl'.history
    refine h tx e' ⟨hbegan'.mono hpre', fun _ hs => ?_⟩ ((hpre.trans hl'.history).trans hpre')
      fun ht t hread ev hev => ?_
    · exact lock_taken hexec (hk'.sound.sessions_eq ▸ hs)
    · have hsame : e'.store.events = d'.store.events := by
        rcases exec_inserts hexec with hsame | ⟨_, _, _, _, _, _, hop, _⟩
        · exact hsame
        · cases hop
      rw [hsame] at hev
      exact hmay ht i t hbegan' (hread.mono (hpre.trans hl'.history)) ev hev

/-- Both writers end so: the transaction inserts the event with the next number. -/
theorem safe_insert {event : TimelineEvent π} {run : Option RunRow} {highest t : Nat}
    {f : Option (Option (TimelineEventRecord π)) → Call π α}
    (hholds : Holds sessions i tx event.sessionId c)
    (hnumber : tx ∈ c.store.active → event.sessionId ∈ sessions →
      highest = c.store.maxSequence event.sessionId)
    (hread : ∃ j, HasRead c j t)
    (hnone : tx ∈ c.store.active → event.sessionId ∈ sessions → timely → ClockRuns c.history →
      NoneAfter c event.sessionId t)
    (h : ∀ d now a e, Keeps digest sessions timely d →
      Undisturbed sessions tx event.sessionId c d → tx ∈ d.store.active →
      exec (.commit tx run (some (event.create digest, highest + 1, t))) now d.store =
        some (a, e.store) →
      (f a).Safe (discipline digest sessions timely) i r post e) :
    (ask (.commit tx run (some (event.create digest, highest + 1, t))) >>= f).Safe
      (discipline digest sessions timely) i r post c := by
  refine safe_ask ?_ ?_
  · intro d hl hk hactive
    have ha : tx ∈ d.store.active := hactive tx rfl
    -- the number stays the next one until the transaction commits
    have hquiet := hholds.undisturbed hl
    have hd := hholds.later hl
    refine ⟨?_, ⟨event.create_made, fun hs => ?_⟩, ?_, fun hs ht hclock => ?_⟩
    · rintro tx' heq
      cases heq
      exact hd.began
    · have hs' : event.sessionId ∈ sessions := hk.sound.sessions_eq ▸ hs
      refine ⟨hd.locked ha hs', congrArg (· + 1) ?_⟩
      exact (hnumber (hquiet.active ha) hs').trans (hquiet.maxSequence ha hs').symm
    · obtain ⟨j, hj⟩ := hread
      exact ⟨j, hj.mono hl.history⟩
    · have hs' : event.sessionId ∈ sessions := hk.sound.sessions_eq ▸ hs
      refine hquiet.noneAfter ha hs' ?_
      exact hnone (hquiet.active ha) hs' ht (hclock.of_prefix hl.history)
  · intro d now a e hl hk _ hcommit _ _
    exact h d now a e hk (hholds.undisturbed hl) (exec_active hcommit rfl) hcommit

end safe

/-! ## How the writers end -/

variable (digest sessions) in
/-- An `append` ends with the record of its event, unless there is no such session. -/
def Ends : Request π → Except TimelineError (Reply π) → TimelineConfig π → Prop
  | .append event, .ok (.event record), c =>
      record ∈ c.store.events ∧ record.eventId = (event.create digest).eventId
  | .append _, .ok _, _ => False
  | .append event, .error _, _ => DistinctIds digest sessions → event.sessionId ∉ sessions
  | _, _, _ => True

/-- The answer to the lookup decides what `append` does. -/
def appendFound (payload : TimelineEventCreate π) (tx : Nat) :
    Option (TimelineEventRecord π) → Call π (Reply π)
  | some existing => ask (.commit tx none none) >>= fun _ => .ret (.event existing)
  | none =>
      ask (.maxSequence tx payload.sessionId) >>= fun highest : Nat =>
        ask .utcNow >>= fun now : Nat =>
          ask (.commit tx none (some (payload, highest + 1, now))) >>=
            fun committed : Option (Option (TimelineEventRecord π)) =>
              orRaise .integrityError committed.join >>= fun record => .ret (.event record)

variable (digest) in
theorem serve_append (event : TimelineEvent π) : serve digest (.append event) =
    (ask .begin >>= fun tx : Nat => ask (.lockSession tx event.sessionId) >>= fun _ =>
      ask (.findEvent tx (event.create digest).eventId) >>= appendFound (event.create digest) tx :
        Call π (Reply π)) := by
  show Proc.call _ _ = Proc.call _ _
  congr 1
  funext tx
  show Proc.call _ _ = Proc.call _ _
  congr 1
  funext _
  show Proc.call _ _ = Proc.call _ _
  congr 1
  funext found
  cases found <;> rfl

variable (digest) in
theorem serve_createRun (run : RunRow) (event : TimelineEvent π) :
    serve digest (.createRun run (some event)) =
      (ask .utcNow >>= fun now : Nat =>
        ask .begin >>= fun tx : Nat => ask (.lockSession tx event.sessionId) >>= fun _ =>
          ask (.maxSequence tx event.sessionId) >>= fun highest : Nat =>
            ask (.commit tx (some run) (some (event.create digest, highest + 1, now))) >>=
              fun committed : Option (Option (TimelineEventRecord π)) =>
                (orRaise .dependencyUnavailable committed >>= fun _ => .ret run) >>= fun run =>
                  .ret (Reply.run run) : Call π (Reply π)) := by
  rfl

section writers

variable {i : Nat} {c : TimelineConfig π}

theorem Later.mem {who : Nat → Prop} {d : TimelineConfig π} (h : Later who c d)
    {e : TimelineEventRecord π} (he : e ∈ c.store.events) : e ∈ d.store.events :=
  h.events.subset he

section append

variable {tx : Nat} {event : TimelineEvent π}

/-- The event is there: it stays, and is returned. -/
theorem safe_existing {existing : TimelineEventRecord π} (hbegan : Began c i tx)
    (hmem : existing ∈ c.store.events)
    (hid : existing.eventId = (event.create digest).eventId) :
    (appendFound (event.create digest) tx (some existing)).Safe (discipline digest sessions timely) i
      (.append event) (Ends digest sessions (.append event)) c := by
  refine safe_ask ?_ ?_
  · intro d hl _ _
    refine ⟨?_, trivial, trivial⟩
    rintro tx' heq
    cases heq
    exact hbegan.mono hl.history
  · intro d now a e hl _ _ hexec _ _ d' hl' _
    exact ⟨hl'.mem ((exec_events hexec).subset (hl.mem hmem)), hid⟩

/-- The event is not there: as long as the transaction holds the session nobody else inserts it. -/
theorem safe_missing (hholds : Holds sessions i tx event.sessionId c)
    (hfree : ∀ e ∈ c.store.events, e.eventId ≠ (event.create digest).eventId) :
    (appendFound (event.create digest) tx none).Safe (discipline digest sessions timely) i
      (.append event) (Ends digest sessions (.append event)) c := by
  refine safe_query hholds rfl fun d now highest e _ hexec hstore _ hholds' hquiet => ?_
  obtain ⟨-, hhighest, -⟩ := exec_maxSequence hexec
  refine safe_query hholds' trivial fun d' now' t e' hk' _ hstore' hhist' hholds'' hquiet' => ?_
  refine safe_insert hholds'' (fun ha hs => ?_) ⟨i, .append event, by rw [hhist']; simp⟩
    (fun _ _ _ hclock => ?_) fun d'' now'' a e'' hk'' hquiet'' ha hcommit => ?_
  · rw [hquiet'.maxSequence ha hs, hstore]
    exact hhighest
  · have hstamped : ∀ e ∈ e'.store.events, ∃ j, HasRead d' j e.createdAt := by
      rw [hstore']
      exact hk'.stamped
    exact noneAfter_of_read hstamped hhist' hclock _
  rcases commit_returns hcommit with rfl | ⟨record, rfl, hrecord, hcreate⟩
  · intro _ _ _ hinj hs
    -- refused, though nothing with the number or the id of the event is there
    have hsame := (hquiet.trans (hquiet'.trans hquiet''))
    have hunused : ∀ ev ∈ d''.store.events, ev.eventId ≠ (event.create digest).eventId := by
      intro ev hev hid
      obtain ⟨hsession, key, hkey⟩ := hk''.sound.made ev hev
      have heq := (hinj _ hsession _ hs _ _ _ _ (hkey.symm.trans hid)).1
      exact hfree ev (hsame.events ha hs ev hev heq) hid
    have hnumber : highest = d''.store.maxSequence event.sessionId := by
      rw [(hquiet'.trans hquiet'').maxSequence ha hs, hstore]
      exact hhighest
    subst hnumber
    exact absurd (commit_accepted hk''.sound hs hunused hcommit) (by simp)
  · intro d₃ hl' _
    refine ⟨hl'.mem hrecord, ?_⟩
    rw [← hcreate]

end append

/-- **`append`.** Its transaction finds the event, or inserts it. -/
theorem safe_append (event : TimelineEvent π) :
    (serve digest (.append event)).Safe (discipline digest sessions timely) i (.append event)
      (Ends digest sessions (.append event)) c := by
  rw [serve_append]
  refine safe_lock fun tx c hholds _ _ => ?_
  refine safe_query hholds rfl fun d now found e _ hexec hstore _ hholds' _ => ?_
  obtain ⟨-, hfound, -⟩ := exec_findEvent hexec
  cases found with
  | some existing =>
      refine safe_existing hholds'.began ?_ ?_
      · rw [hstore]
        exact List.mem_of_find?_eq_some hfound.symm
      · simpa using List.find?_some hfound.symm
  | none =>
      refine safe_missing hholds' ?_
      rw [hstore]
      simpa using hfound.symm

/-- Nothing is asked of the end of `create`. -/
theorem safe_created {run : RunRow} {timelineEvent : Option (TimelineEvent π)} {α : Type}
    (o : Option α) (c : TimelineConfig π) :
    ((orRaise .dependencyUnavailable o >>= fun _ => .ret run) >>= fun run => .ret (.run run) :
      Call π (Reply π)).Safe (discipline digest sessions timely) i (.createRun run timelineEvent)
        (Ends digest sessions (.createRun run timelineEvent)) c := by
  cases o <;> exact fun _ _ _ => trivial

/-- **`create`.** It does not look for the event; its transaction holds the session as well. -/
theorem safe_createRun (run : RunRow) (timelineEvent : Option (TimelineEvent π)) :
    (serve digest (.createRun run timelineEvent)).Safe (discipline digest sessions timely) i
      (.createRun run timelineEvent) (Ends digest sessions (.createRun run timelineEvent)) c := by
  cases timelineEvent with
  | none =>
      refine safe_ask ?_ ?_
      · intro d _ _ _
        exact ⟨by rintro _ ⟨⟩, trivial, trivial⟩
      intro d _ now e _ _ _ _ _ _
      refine safe_ask ?_ ?_
      · intro d _ _ _
        exact ⟨by rintro _ ⟨⟩, trivial, trivial⟩
      intro d _ tx e _ _ _ _ _ hhist
      have hbegan : Began e i tx := ⟨.createRun run none, by rw [hhist]; simp⟩
      refine safe_ask ?_ ?_
      · intro d' hl _ _
        refine ⟨?_, trivial, trivial⟩
        rintro tx' heq
        cases heq
        exact hbegan.mono hl.history
      · exact fun _ _ a e' _ _ _ _ _ _ => safe_created a e'
  | some event =>
      rw [serve_createRun]
      refine safe_ask ?_ ?_
      · intro d _ _ _
        exact ⟨by rintro _ ⟨⟩, trivial, trivial⟩
      intro d _ now c _ _ _ _ _ hhist
      have hread : HasRead c i now := ⟨.createRun run (some event), by rw [hhist]; simp⟩
      refine safe_lock fun tx c' hholds hpre hnone => ?_
      refine safe_query hholds rfl fun d' _ highest e _ hexec hstore _ hholds' hquiet => ?_
      obtain ⟨-, hhighest, -⟩ := exec_maxSequence hexec
      refine safe_insert hholds' (fun _ _ => hstore ▸ hhighest)
        ⟨i, hread.mono (hpre.trans hquiet.history)⟩ (fun ha hs ht _ => ?_)
        fun _ _ a e' _ _ _ _ => safe_created a e'
      exact hquiet.noneAfter ha hs (hnone ht now hread)

theorem safe_kill (tx : Nat) :
    (serve digest (.kill tx)).Safe (discipline digest sessions timely) i (.kill tx)
      (Ends digest sessions (.kill tx)) c := by
  refine safe_ask ?_ ?_
  · intro d _ _ _
    exact ⟨by rintro _ ⟨⟩, trivial, trivial⟩
  · exact fun _ _ _ _ _ _ _ _ _ _ _ _ _ => trivial

end writers

/-! ## Every interleaving -/

theorem safe_serve (i : Nat) (r : Request π) (c : TimelineConfig π) :
    (serve digest r).Safe (discipline digest sessions timely) i r (Ends digest sessions r) c := by
  cases r with
  | append event => exact safe_append event
  | createRun run timelineEvent => exact safe_createRun run timelineEvent
  | kill tx => exact safe_kill tx

abbrev TimelinePool (π : Type) := Pool (database π) (Request π) TimelineError (Reply π)

/-- The next statement is on time. -/
def Punctual (p : TimelinePool π) : Move (database π) (Request π) → Prop
  | .start _ => True
  | .step i _ => ∀ r op k, p.tasks[i]? = some ⟨r, .call op k⟩ → @Op.OnTime π p.config op

theorem allSafe_of_reachable {p : TimelinePool π}
    (h : (system digest sessions).ReachableVia (fun p m => timely → Punctual p m) p) :
    Pool.AllSafe (discipline digest sessions timely) (fun _ r => Ends digest sessions r) p := by
  refine Pool.safe_of_reachable ?_ (fun i r c _ _ => safe_serve i r c)
    (fun p i x r op k _ hok htask ht => hok ht r op k htask) ?_ h
  · rintro db ⟨hsessions, hevents, hlocks, hactive, hbegun⟩
    refine ⟨⟨hsessions, hevents ▸ Table.gapless_nil, ?_, ?_, ?_, ?_, ?_⟩, ?_, ?_, ?_, ?_⟩
    · simp [hevents]
    · simp [hevents]
    · simp [hlocks]
    · simp [hactive]
    · simp [hlocks]
    · rintro i tx ⟨r, hmem⟩
      cases hmem
    · rintro i j tx ⟨r, hmem⟩
      cases hmem
    · simp [hevents]
    · intro _ _
      simp [hevents, Chronological]
  · intro p i x r op k a c _ _ _ _ _ hguar j t hj _
    exact ⟨hguar.events, hguar.history, fun i' tx hi' => hguar.kept i' tx (hi' ▸ hj)⟩

theorem uses_serve (r : Request π) : (serve digest r).Uses (r.Inserts digest) := by
  have hask : ∀ {α : Type} {op : Op π} {f : Ans π op → Call π α}, r.Inserts digest op →
      (∀ a, (f a).Uses (r.Inserts digest)) → (ask op >>= f).Uses (r.Inserts digest) :=
    fun hop hf => ⟨hop, fun a _ => hf a⟩
  cases r with
  | append event =>
      rw [serve_append]
      refine hask trivial fun tx => hask trivial fun _ => hask trivial fun found => ?_
      cases found with
      | some existing => exact hask trivial fun _ => trivial
      | none =>
          refine hask trivial fun highest => hask trivial fun now => hask rfl fun committed => ?_
          cases Option.join committed <;> exact trivial
  | createRun run timelineEvent => exact Proc.Uses.mono (Proc.uses_true _) fun _ _ => trivial
  | kill tx => exact hask trivial fun _ => trivial

/-- What a state of the timeline promises. -/
structure Intact (digest : String → String) (sessions : List String) (p : TimelinePool π) :
    Prop where
  /-- The events of every session have the numbers 1, 2, .... -/
  gapFree : ∀ s, Table.numbers (fun e : TimelineEventRecord π => e.sessionId) (·.sequence)
      p.config.store.events s =
    List.range' 1 (p.config.store.events.countP fun e => e.sessionId = s)
  unique : (p.config.store.events.map (·.eventId)).Nodup
  /-- An `append` that has returned has returned the one event with its session, type and key. -/
  returned : ∀ (i : Nat) (event : TimelineEvent π) reply,
    p.tasks[i]? = some ⟨.append event, .ret reply⟩ → ∃ record, reply = .event record ∧
      record ∈ p.config.store.events ∧ ∀ e ∈ p.config.store.events,
        e.eventId = timelineEventId digest event.sessionId event.eventType event.key ↔ e = record
  /-- No `append` to a session that exists fails. -/
  accepted : ∀ (i : Nat) (event : TimelineEvent π) e,
    p.tasks[i]? = some ⟨.append event, .raise e⟩ → event.sessionId ∉ sessions

/-- **The timeline has no gaps**, whatever the writers do at the same time. Events that are there stay,
and an `append` whose event is there changes nothing. -/
theorem timeline_gap_free (hinj : DistinctIds digest sessions) {p : TimelinePool π}
    (h : (system digest sessions).Reachable p) : Intact digest sessions p ∧
      ∀ m q, (system digest sessions).step p m = some q →
        p.config.store.events <+: q.config.store.events ∧
        ∀ i now event rest, m = .step i now → p.tasks[i]? = some ⟨.append event, rest⟩ →
          (∃ e ∈ p.config.store.events,
            e.eventId = timelineEventId digest event.sessionId event.eventType event.key) →
          q.config.store.events = p.config.store.events := by
  have hsafe := allSafe_of_reachable (h.mono fun _ _ _ => False.elim)
  refine ⟨⟨fun s => ?_, hsafe.keeps.sound.unique, fun i event reply htask => ?_,
    fun i event e htask => hsafe.post_raise htask hinj⟩, fun m q hstep => ?_⟩
  · rw [hsafe.keeps.sound.gapless s, List.countP_eq_length_filter]
    simp [Table.numbers]
  · have hends := hsafe.post_ret htask
    cases reply with
    | event record =>
        obtain ⟨hmem, hid⟩ := hends
        refine ⟨record, rfl, hmem, fun e he => ⟨fun heq => ?_, fun heq => heq ▸ hid⟩⟩
        exact List.inj_on_of_nodup_map hsafe.keeps.sound.unique he hmem (heq.trans hid.symm)
    | run run => exact hends.elim
    | unit => exact hends.elim
  · rcases Pool.step_cases hstep with
      ⟨r, rfl, rfl⟩ | ⟨i, now, r, op, k, a, c, rfl, htask, hexec, rfl⟩
    · exact ⟨List.prefix_rfl, nofun⟩
    · have hstore := (Config.exec_eq_some hexec).1
      refine ⟨exec_events hstore, fun i' now' event rest hmove htask' hthere => ?_⟩
      cases hmove
      obtain ⟨rfl, rfl⟩ : r = .append event ∧ rest = .call op k := by
        simpa [htask, eq_comm] using htask'
      have huses := Pool.uses_of_reachable uses_serve h i _ htask
      exact exec_append huses.1 hthere hstore

end invariant

/-! ## Two appends of one event, and a run -/

def noTimeline : TimelinePool Unit := ⟨⟨⟨["session-1"], [], [], [], [], 0, 0⟩, []⟩, []⟩

def sampleRun : RunRow where
  id := "run-1"
  sessionId := "session-1"
  traceId := "trace-1"
  idempotencyKey := none
  requestHash := .chat "session-1" ⟨"session-1", "fan", [], none, none⟩
  runType := .diagnosis

/-- An `append`, `create` with its message, and the `append` once more: all three begin, and each
waits for the row of the session until the one before it has committed. -/
def sampleMoves : List (Move (database Unit) (Request Unit)) :=
  let result : TimelineEvent Unit := ⟨"session-1", .diagnosisResult, "run-0", none, none, ()⟩
  let message : TimelineEvent Unit := ⟨"session-1", .userMessage, "run-1", some "run-1", none, ()⟩
  [.start (.append result), .start (.createRun sampleRun (some message)), .start (.append result)] ++
    [0, 1, 1, 2, 0, 0, 0, 0, 0, 1, 1, 1, 2, 2, 2].map fun i => .step i (7 : Nat)

def sampleTimeline : TimelinePool Unit :=
  ((system id ["session-1"]).run noTimeline sampleMoves).get (by decide +kernel)

/-- Three writers, two events. -/
theorem sampleTimeline_intact : Intact id ["session-1"] sampleTimeline ∧
    sampleTimeline.config.store.events.length = 2 := by
  have hinit : (system id ["session-1"]).init noTimeline := ⟨⟨rfl, rfl, rfl, rfl, rfl⟩, rfl, rfl⟩
  have hrun : (system id ["session-1"]).run noTimeline sampleMoves = some sampleTimeline :=
    (Option.some_get _).symm
  have hinj : DistinctIds id ["session-1"] :=
    distinctIds_of_uuid Function.injective_id (by simp)
  have hreached := TransitionSystem.Reachable.of_run (.init hinit) hrun
  exact ⟨(timeline_gap_free hinj hreached).1, by decide +kernel⟩

end EnergyAgent.Timeline
