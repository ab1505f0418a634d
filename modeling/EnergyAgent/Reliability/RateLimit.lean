import EnergyAgent.Lib.Redis
import EnergyAgent.Lib.Transition

/-!
# The limit of concurrent streams

`acquire_stream` counts the open streams of an actor under a key that lives 300 seconds from the last
acquire; `release_stream` counts back. A stream that is open when the key expires is forgotten, so more
streams than the limit may be open then. An acquire below the limit is always accepted.
-/

namespace EnergyAgent.Reliability

open EnergyAgent.Lib EnergyAgent.Lib.Redis

/-- `_ACQUIRE_CONCURRENT_SCRIPT` -/
def acquireScript (limit ttl now : Nat) (key : Key) : Bool × Key :=
  let (current, key) := (key.live now).incrBy 1
  let key := key.expire now ttl
  if limit < current then (false, (key.incrBy (-1)).2) else (true, key)

/-- `_RELEASE_CONCURRENT_SCRIPT` -/
def releaseScript (now : Nat) (key : Key) : Int × Key :=
  let (current, key) := (key.live now).incrBy (-1)
  (current, if current ≤ 0 then none else key)

/-- The time to live that `acquire_stream` sets. -/
def streamTtl : Nat := 300 * 1000

/-- `acquire_stream` -/
def acquireStream (limit now : Nat) (key : Key) : Bool × Key := acquireScript limit streamTtl now key

/-- `release_stream` -/
def releaseStream (now : Nat) (key : Key) : Key := (releaseScript now key).2

/-! ## The streams of one actor -/

structure Streams where
  time : Nat
  key : Key
  /-- The streams that have been accepted and not yet released. -/
  opened : Nat
  lastAcquire : Nat
  deriving DecidableEq, Repr

inductive StreamCall
  | acquire (now : Nat)
  | release (now : Nat)
  deriving DecidableEq, Repr

def StreamCall.time : StreamCall → Nat
  | .acquire now | .release now => now

def Streams.acquire (limit : Nat) (s : Streams) (now : Nat) : Streams :=
  let (accepted, key) := acquireStream limit now s.key
  { time := now, key, opened := if accepted then s.opened + 1 else s.opened, lastAcquire := now }

def Streams.release (s : Streams) (now : Nat) : Streams :=
  { s with time := now, key := releaseStream now s.key, opened := s.opened - 1 }

/-- All sequences of calls: time goes on, and only an open stream is released. -/
def streams (limit : Nat) : TransitionSystem Streams StreamCall where
  init s := s.key = none ∧ s.opened = 0
  step s
    | .acquire now => if s.time ≤ now then some (s.acquire limit now) else none
    | .release now => if s.time ≤ now ∧ 0 < s.opened then some (s.release now) else none

/-- No stream is open any more when 300 seconds have passed since the last acquire. -/
def Remembered (s : Streams) (call : StreamCall) : Prop :=
  s.opened = 0 ∨ call.time ≤ s.lastAcquire + streamTtl

instance (s : Streams) (call : StreamCall) : Decidable (Remembered s call) :=
  inferInstanceAs (Decidable (_ ∨ _))

section run

variable {limit : Nat} {s s' : Streams}

/-! ## What the scripts do -/

/-- **The acquire script** counts one more, unless the limit is reached. -/
theorem acquireScript_eq (limit ttl now : Nat) (key : Key) :
    acquireScript limit ttl now key =
      if limit < key.count now + 1 then (false, some ⟨key.count now, some (now + ttl)⟩)
      else (true, some ⟨key.count now + 1, some (now + ttl)⟩) := by
  unfold acquireScript
  rw [Key.incrBy_live]
  show (if limit < key.count now + 1 then
    (false, some (Entry.mk (key.count now + 1 + -1) (some (now + ttl)))) else _) = _
  rw [Int.add_neg_cancel_right]
  rfl

theorem acquire_eq (s : Streams) (now : Nat) : s.acquire limit now =
    if limit < s.key.count now + 1 then
      ⟨now, some ⟨s.key.count now, some (now + streamTtl)⟩, s.opened, now⟩
    else ⟨now, some ⟨s.key.count now + 1, some (now + streamTtl)⟩, s.opened + 1, now⟩ := by
  unfold Streams.acquire acquireStream
  rw [acquireScript_eq]
  by_cases hfull : limit < s.key.count now + 1
  · simp only [if_pos hfull, Bool.false_eq_true, if_false]
  · simp only [if_neg hfull, if_true]

/-- **The release script** counts one less, and drops the key at zero. -/
theorem releaseStream_eq (now : Nat) (key : Key) :
    releaseStream now key = if key.count now - 1 ≤ 0 then none
      else some ⟨key.count now - 1, (key.live now).bind (·.expiresAt)⟩ := by
  unfold releaseStream releaseScript
  rw [Key.incrBy_live]
  rfl

theorem streams_step {call : StreamCall} (h : (streams limit).step s call = some s') :
    s.time ≤ call.time ∧ ((∃ now, call = .acquire now ∧ s' = s.acquire limit now) ∨
      ∃ now, call = .release now ∧ 0 < s.opened ∧ s' = s.release now) := by
  cases call with
  | acquire now =>
      simp only [streams] at h
      split at h
      · next htime =>
          cases h
          exact ⟨htime, Or.inl ⟨now, rfl, rfl⟩⟩
      · cases h
  | release now =>
      simp only [streams] at h
      split at h
      · next hguard =>
          cases h
          exact ⟨hguard.1, Or.inr ⟨now, rfl, hguard.2, rfl⟩⟩
      · cases h

/-! ## Every acquire below the limit is accepted -/

/-- The key counts at most the open streams. -/
def CountsAtMost (s : Streams) : Prop := ∀ e, s.key = some e → e.value ≤ s.opened

theorem CountsAtMost.count_le (h : CountsAtMost s) (now : Nat) : s.key.count now ≤ s.opened := by
  rcases Key.count_cases s.key now with hzero | ⟨e, hkey, hcount⟩
  · rw [hzero]
    exact Int.natCast_nonneg _
  · rw [hcount]
    exact h e hkey

theorem CountsAtMost.acquire (h : CountsAtMost s) (now : Nat) :
    CountsAtMost (s.acquire limit now) := by
  have hle := h.count_le now
  rw [acquire_eq]
  split
  · rintro e ⟨⟩
    exact hle
  · rintro e ⟨⟩
    show s.key.count now + 1 ≤ ((s.opened + 1 : Nat) : Int)
    omega

theorem CountsAtMost.release (h : CountsAtMost s) (hopen : 0 < s.opened) (now : Nat) :
    CountsAtMost (s.release now) := by
  have hle := h.count_le now
  intro e he
  unfold Streams.release at he ⊢
  rw [releaseStream_eq] at he
  split at he
  · cases he
  · cases he
    show s.key.count now - 1 ≤ ((s.opened - 1 : Nat) : Int)
    omega

theorem countsAtMost_of_reachable {ok : Streams → StreamCall → Prop}
    (h : (streams limit).ReachableVia ok s) : CountsAtMost s := by
  refine h.invariant ?_ ?_
  · rintro s ⟨hkey, -⟩ e he
    cases hkey.symm.trans he
  · intro s call s' hs _ hstep
    obtain ⟨-, ⟨now, rfl, rfl⟩ | ⟨now, rfl, hopen, rfl⟩⟩ := streams_step hstep
    · exact hs.acquire now
    · exact hs.release hopen now

/-! ## No more streams than the limit, while none is forgotten -/

/-- The key counts the open streams, within the limit, and lives from the last acquire. -/
structure Counts (limit : Nat) (s : Streams) : Prop where
  within : s.opened ≤ limit
  key : (s.key = none ∧ s.opened = 0) ∨ s.key = some ⟨s.opened, some (s.lastAcquire + streamTtl)⟩

/-- A script finds the number of the open streams. -/
theorem Counts.count_eq (h : Counts limit s) {call : StreamCall} (hok : Remembered s call) :
    s.key.count call.time = s.opened := by
  rcases h.key with ⟨hkey, hopen⟩ | hkey
  · rw [hkey, hopen]
    rfl
  · rcases hok with hopen | htime
    · rcases Key.count_cases s.key call.time with hzero | ⟨e, he, hcount⟩
      · rw [hzero, hopen]
        rfl
      · rw [hcount]
        cases hkey.symm.trans he
        rfl
    · have hlive : s.key.live call.time = s.key := by
        rw [hkey]
        apply Key.live_eq_self
        rintro _ ⟨⟩
        exact htime
      unfold Key.count
      rw [hlive, hkey]
      rfl

theorem Counts.acquire (h : Counts limit s) {now : Nat} (hok : Remembered s (.acquire now)) :
    Counts limit (s.acquire limit now) := by
  have hcount : s.key.count now = s.opened := h.count_eq hok
  have hwithin := h.within
  rw [acquire_eq, hcount]
  split
  · exact ⟨hwithin, Or.inr rfl⟩
  · next hroom =>
      refine ⟨?_, Or.inr rfl⟩
      show s.opened + 1 ≤ limit
      omega

theorem Counts.release (h : Counts limit s) (hopen : 0 < s.opened) {now : Nat}
    (hok : Remembered s (.release now)) : Counts limit (s.release now) := by
  have hcount : s.key.count now = s.opened := h.count_eq hok
  refine ⟨Nat.le_trans (Nat.sub_le _ _) h.within, ?_⟩
  show releaseStream now s.key = none ∧ s.opened - 1 = 0 ∨
    releaseStream now s.key = some ⟨(s.opened - 1 : Nat), some (s.lastAcquire + streamTtl)⟩
  rw [releaseStream_eq, hcount]
  split
  · left
    refine ⟨rfl, ?_⟩
    omega
  · right
    have hlive : s.key.live now = some ⟨s.opened, some (s.lastAcquire + streamTtl)⟩ := by
      rcases h.key with ⟨-, hzero⟩ | hkey
      · omega
      · rw [hkey]
        apply Key.live_eq_self
        rintro _ ⟨⟩
        rcases hok with hzero | htime
        · omega
        · exact htime
    rw [hlive]
    have hvalue : (s.opened : Int) - 1 = (s.opened - 1 : Nat) := by omega
    rw [hvalue]
    rfl

theorem counts_of_reachable (h : (streams limit).ReachableVia Remembered s) : Counts limit s := by
  refine h.invariant ?_ ?_
  · rintro s ⟨hkey, hopen⟩
    exact ⟨hopen ▸ Nat.zero_le _, Or.inl ⟨hkey, hopen⟩⟩
  · intro s call s' hs hok hstep
    obtain ⟨-, ⟨now, rfl, rfl⟩ | ⟨now, rfl, hopen, rfl⟩⟩ := streams_step hstep
    · exact hs.acquire hok
    · exact hs.release hopen hok

end run

/-- **The limit of concurrent streams.** An acquire below the limit is accepted in every run; no more
streams than the limit are open where no stream outlives the key. -/
theorem stream_limit (limit : Nat) :
    (∀ s, (streams limit).Reachable s → s.opened < limit →
      ∀ now, (acquireStream limit now s.key).1 = true) ∧
    ∀ s, (streams limit).ReachableVia Remembered s → s.opened ≤ limit := by
  refine ⟨fun s h hlt now => ?_, fun s h => (counts_of_reachable h).within⟩
  have hle := (countsAtMost_of_reachable h).count_le now
  unfold acquireStream
  rw [acquireScript_eq, if_neg (by omega)]

/-! ## Two runs -/

def noStreams : Streams := ⟨0, none, 0, 0⟩

/-- Two streams, of which one has been released. -/
def rememberedStreams : Streams :=
  ((streams 2).runChecked (fun s call => decide (Remembered s call)) noStreams
    [.acquire 0, .acquire 200000, .release 450000]).get (by decide)

theorem rememberedStreams_limit : rememberedStreams.opened ≤ 2 ∧
    (acquireStream 2 460000 rememberedStreams.key).1 = true := by
  have hrun : (streams 2).runChecked (fun s call => decide (Remembered s call)) noStreams
      [.acquire 0, .acquire 200000, .release 450000] = some rememberedStreams :=
    (Option.some_get _).symm
  have hreached : (streams 2).ReachableVia Remembered rememberedStreams :=
    .of_runChecked (fun _ _ => of_decide_eq_true) (.init ⟨rfl, rfl⟩) hrun
  have hlt : rememberedStreams.opened < 2 := by decide
  exact ⟨(stream_limit 2).2 _ hreached,
    (stream_limit 2).1 _ (hreached.mono fun _ _ _ => trivial) hlt 460000⟩

/-- A stream that is open for more than 300 seconds, and a second one. -/
def forgottenStream : Streams :=
  ((streams 1).run noStreams [.acquire 0, .acquire 300001]).get (by decide)

theorem forgottenStream_over_limit :
    (streams 1).Reachable forgottenStream ∧ ¬ forgottenStream.opened ≤ 1 := by
  have hrun : (streams 1).run noStreams [.acquire 0, .acquire 300001] = some forgottenStream :=
    (Option.some_get _).symm
  exact ⟨.of_run (.init ⟨rfl, rfl⟩) hrun, by decide⟩

end EnergyAgent.Reliability
