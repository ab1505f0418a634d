import EnergyAgent.Lib.Redis
import EnergyAgent.Lib.Transition
import Mathlib.Data.List.Count
import Mathlib.Data.Nat.Find

/-!
# The rate limit of calls

`allow` counts the calls of an actor in a group under a key that lives for one window from the first
call on. The windows are not fixed in advance: the next one begins with the first call after the key
is gone. So an interval as long as a window meets two keys at most, and never three.
-/

namespace EnergyAgent.Reliability

open EnergyAgent.Lib EnergyAgent.Lib.Redis

/-- `_SCRIPT` -/
def rateScript (windowSeconds limit now : Nat) (key : Key) : (Bool × Int) × Key :=
  let (current, key) := (key.live now).incrBy 1
  let key := if current = 1 then key.expireSeconds now windowSeconds else key
  let ttl := key.ttl now
  if limit < current then ((false, ttl), key) else ((true, ttl), key)

/-- `allow`: whether the call is let through, and the seconds after which to try again. -/
def allow (limit windowSeconds now : Nat) (key : Key) : (Bool × Int) × Key :=
  let ((allowed, ttl), key) := rateScript windowSeconds limit now key
  ((allowed, max 1 ttl), key)

/-! ## The calls of one actor in one group -/

/-- A call that was answered. `counter` is the number of the key that counted it. -/
structure AllowCall where
  time : Nat
  accepted : Bool
  counter : Nat
  deriving DecidableEq, Repr

structure Calls where
  time : Nat
  key : Key
  /-- How many keys have been created, and when the last of them was. -/
  counter : Nat
  created : Nat
  /-- The calls so far, the last one first. -/
  log : List AllowCall
  deriving DecidableEq, Repr

/-- The call finds no key, so that it creates one. -/
def Calls.Creates (s : Calls) (now : Nat) : Prop := s.key.live now = none

instance (s : Calls) (now : Nat) : Decidable (s.Creates now) :=
  inferInstanceAs (Decidable (_ = _))

def Calls.call (limit windowSeconds : Nat) (s : Calls) (now : Nat) : Calls :=
  let ((accepted, _), key) := allow limit windowSeconds now s.key
  let counter := if s.Creates now then s.counter + 1 else s.counter
  { time := now, key, counter
    created := if s.Creates now then now else s.created
    log := ⟨now, accepted, counter⟩ :: s.log }

/-- All sequences of calls; a label is the time of a call. -/
def calls (limit windowSeconds : Nat) : TransitionSystem Calls Nat where
  init s := s.key = none ∧ s.counter = 0 ∧ s.log = []
  step s now := if s.time ≤ now then some (s.call limit windowSeconds now) else none

/-- The calls among `log` that were let through and satisfy `p`. -/
def acceptedCalls (p : AllowCall → Prop) [DecidablePred p] (log : List AllowCall) : Nat :=
  log.countP fun call => call.accepted ∧ p call

/-- What the limit promises, in a state with the next call still to come. -/
structure Bounded (limit windowSeconds : Nat) (s : Calls) : Prop where
  /-- One key lets `limit` calls through. -/
  perKey : ∀ counter, acceptedCalls (·.counter = counter) s.log ≤ limit
  /-- An interval as long as the window lets through twice as many. -/
  perInterval : ∀ start, acceptedCalls
    (fun call => start ≤ call.time ∧ call.time < start + windowSeconds * 1000) s.log ≤ 2 * limit
  /-- The next call is refused only if `limit` calls went through in the window before it. -/
  refusal : ∀ now, s.time ≤ now → (allow limit windowSeconds now s.key).1.1 = false →
    limit ≤ acceptedCalls (fun call => now ≤ call.time + windowSeconds * 1000) s.log
  /-- The key is not there to stay. -/
  expires : ∀ e, s.key = some e → ∃ t, e.expiresAt = some t ∧ t ≤ s.time + windowSeconds * 1000

section run

variable {limit windowSeconds : Nat} {s s' : Calls}

/-! ## What a call does -/

theorem calls_step {now : Nat} (h : (calls limit windowSeconds).step s now = some s') :
    s.time ≤ now ∧ s' = s.call limit windowSeconds now := by
  simp only [calls] at h
  split at h
  · next htime => exact ⟨htime, (Option.some.inj h).symm⟩
  · cases h

theorem accepted_iff (now : Nat) (key : Key) :
    (allow limit windowSeconds now key).1.1 = true ↔ key.count now + 1 ≤ limit := by
  unfold allow rateScript
  rw [Key.incrBy_live]
  dsimp only
  by_cases hfull : (limit : Int) < key.count now + 1
  · rw [if_pos hfull]
    exact iff_of_false Bool.false_ne_true (Int.not_le.mpr hfull)
  · rw [if_neg hfull]
    exact iff_of_true rfl (Int.not_lt.mp hfull)

/-- A call that finds no key leaves one that counts to one, and lives for the window. -/
theorem call_creates {now : Nat} (h : s.Creates now) : s.call limit windowSeconds now =
    { time := now, counter := s.counter + 1, created := now
      key := if windowSeconds = 0 then none else some ⟨1, some (now + windowSeconds * 1000)⟩
      log := ⟨now, decide (1 ≤ limit), s.counter + 1⟩ :: s.log } := by
  have hcount : s.key.count now = 0 := by
    unfold Key.count
    rw [h]
    rfl
  have haccepted : (allow limit windowSeconds now s.key).1.1 = decide (1 ≤ limit) := by
    rw [Bool.eq_iff_iff, accepted_iff, hcount, decide_eq_true_iff]
    omega
  have hkey : (allow limit windowSeconds now s.key).2 =
      if windowSeconds = 0 then none else some ⟨1, some (now + windowSeconds * 1000)⟩ := by
    unfold allow rateScript
    rw [Key.incrBy_live, hcount]
    show (if _ then _ else _ : (Bool × Int) × Key).2 = _
    split <;> rfl
  unfold Calls.call
  dsimp only
  rw [haccepted, hkey, if_pos h, if_pos h]

/-- A call that finds the key counts on. -/
theorem call_counts {now : Nat} {e : Entry} (h : s.key.live now = some e) (hvalue : 1 ≤ e.value) :
    s.call limit windowSeconds now =
      { s with
        time := now
        key := some { e with value := e.value + 1 }
        log := ⟨now, decide (e.value + 1 ≤ limit), s.counter⟩ :: s.log } := by
  have hcount : s.key.count now = e.value := by
    unfold Key.count
    rw [h]
    rfl
  have hnot : ¬ s.Creates now := by
    unfold Calls.Creates
    rw [h]
    exact Option.some_ne_none e
  have haccepted : (allow limit windowSeconds now s.key).1.1 = decide (e.value + 1 ≤ limit) := by
    rw [Bool.eq_iff_iff, accepted_iff, hcount, decide_eq_true_iff]
  have hkey : (allow limit windowSeconds now s.key).2 = some { e with value := e.value + 1 } := by
    have hne : ¬ e.value + 1 = 1 := by omega
    unfold allow rateScript
    rw [Key.incrBy_live, hcount, h]
    show (if _ then _ else _ : (Bool × Int) × Key).2 = _
    rw [if_neg hne]
    split <;> rfl
  unfold Calls.call
  dsimp only
  rw [haccepted, hkey, if_neg hnot, if_neg hnot]

/-! ## What the key says about the log -/

theorem acceptedCalls_cons (p : AllowCall → Prop) [DecidablePred p] (call : AllowCall)
    (log : List AllowCall) : acceptedCalls p (call :: log) =
      acceptedCalls p log + if call.accepted = true ∧ p call then 1 else 0 := by
  unfold acceptedCalls
  rw [List.countP_cons]
  simp

theorem acceptedCalls_mono {p q : AllowCall → Prop} [DecidablePred p] [DecidablePred q]
    {log : List AllowCall} (h : ∀ call ∈ log, p call → q call) :
    acceptedCalls p log ≤ acceptedCalls q log := by
  refine List.countP_mono_left fun call hcall haccepted => ?_
  obtain ⟨hyes, hp⟩ := of_decide_eq_true haccepted
  exact decide_eq_true ⟨hyes, h call hcall hp⟩

theorem acceptedCalls_eq_zero {p : AllowCall → Prop} [DecidablePred p] {log : List AllowCall}
    (h : ∀ call ∈ log, ¬ p call) : acceptedCalls p log = 0 := by
  refine List.countP_eq_zero.mpr fun call hcall haccepted => ?_
  exact h call hcall (of_decide_eq_true haccepted).2

/-- The key counts the calls since it was created; the calls of the keys before it came before. -/
structure Accounts (limit windowSeconds : Nat) (s : Calls) : Prop where
  times : ∀ call ∈ s.log, call.time ≤ s.time
  counters : ∀ call ∈ s.log, call.counter ≤ s.counter
  before : ∀ call ∈ s.log, call.counter < s.counter → call.time ≤ s.created
  since : ∀ call ∈ s.log, call.counter = s.counter → s.created ≤ call.time
  apart : ∀ call ∈ s.log, call.counter + 1 < s.counter →
    call.time + windowSeconds * 1000 ≤ s.created
  spaced : ∀ call ∈ s.log, ∀ later ∈ s.log, call.counter + 2 ≤ later.counter →
    call.time + windowSeconds * 1000 ≤ later.time
  perKey : ∀ counter, acceptedCalls (·.counter = counter) s.log ≤ limit
  key : (s.key = none ∧ (s.counter = 0 ∨ windowSeconds = 0)) ∨
    ∃ n : Nat, s.key = some ⟨n, some (s.created + windowSeconds * 1000)⟩ ∧ 1 ≤ n ∧
      s.created ≤ s.time ∧ acceptedCalls (·.counter = s.counter) s.log = min limit n

theorem accounts_init (hkey : s.key = none) (hcounter : s.counter = 0) (hlog : s.log = []) :
    Accounts limit windowSeconds s := by
  refine ⟨?_, ?_, ?_, ?_, ?_, ?_, ?_, Or.inl ⟨hkey, Or.inl hcounter⟩⟩ <;> rw [hlog]
  · simp
  · simp
  · simp
  · simp
  · simp
  · simp
  · exact fun _ => Nat.zero_le _

/-- The next key is created when the window of the last one is over. -/
theorem Accounts.over (h : Accounts limit windowSeconds s) {now : Nat} (hnow : s.time ≤ now)
    (hcreates : s.Creates now) {call : AllowCall} (hcall : call ∈ s.log)
    (hbefore : call.counter < s.counter) : call.time + windowSeconds * 1000 ≤ now := by
  have htime := h.times call hcall
  have hcreated := h.before call hcall hbefore
  rcases h.key with ⟨-, hzero | hzero⟩ | ⟨n, hkey, -, -, -⟩
  · omega
  · subst hzero
    omega
  · -- a key that is found again would not have been created
    have hover : ¬ now ≤ s.created + windowSeconds * 1000 := by
      intro hlive
      unfold Calls.Creates at hcreates
      rw [hkey, Key.live_eq_self (by simpa using hlive)] at hcreates
      cases hcreates
    omega

theorem Accounts.creates (h : Accounts limit windowSeconds s) {now : Nat} (hnow : s.time ≤ now)
    (hcreates : s.Creates now) : Accounts limit windowSeconds (s.call limit windowSeconds now) := by
  have hnone : acceptedCalls (·.counter = s.counter + 1) s.log = 0 := by
    refine acceptedCalls_eq_zero fun call hcall heq => ?_
    have hle := h.counters call hcall
    omega
  rw [call_creates hcreates]
  refine ⟨?_, ?_, ?_, ?_, ?_, ?_, ?_, ?_⟩
  · rintro call (_ | ⟨_, hcall⟩)
    · exact Nat.le_refl _
    · exact Nat.le_trans (h.times call hcall) hnow
  · rintro call (_ | ⟨_, hcall⟩)
    · exact Nat.le_refl _
    · exact Nat.le_succ_of_le (h.counters call hcall)
  · rintro call (_ | ⟨_, hcall⟩) hlt
    · exact absurd hlt (Nat.lt_irrefl _)
    · exact Nat.le_trans (h.times call hcall) hnow
  · rintro call (_ | ⟨_, hcall⟩) heq
    · exact Nat.le_refl _
    · have hle := h.counters call hcall
      dsimp only at heq
      omega
  · rintro call (_ | ⟨_, hcall⟩) hfar
    · dsimp only at hfar
      omega
    · exact h.over hnow hcreates hcall (by dsimp only at hfar; omega)
  · rintro call (_ | ⟨_, hcall⟩) later (_ | ⟨_, hlater⟩) hfar
    · dsimp only at hfar
      omega
    · have hle := h.counters later hlater
      dsimp only at hfar
      omega
    · exact h.over hnow hcreates hcall (by dsimp only at hfar; omega)
    · exact h.spaced call hcall later hlater hfar
  · intro counter
    have hle := h.perKey counter
    rw [acceptedCalls_cons]
    split
    · next hone =>
        obtain ⟨haccepted, rfl⟩ := hone
        have hlimit : 1 ≤ limit := of_decide_eq_true haccepted
        dsimp only
        omega
    · omega
  · by_cases hzero : windowSeconds = 0
    · exact Or.inl ⟨if_pos hzero, Or.inr hzero⟩
    · refine Or.inr ⟨1, if_neg hzero, Nat.le_refl _, Nat.le_refl _, ?_⟩
      rw [acceptedCalls_cons, hnone]
      by_cases hlimit : 1 ≤ limit
      · simp [hlimit]
      · have hnothing : limit = 0 := by omega
        simp [hnothing]

theorem Accounts.counts (h : Accounts limit windowSeconds s) {now n : Nat} (hnow : s.time ≤ now)
    (hkey : s.key = some ⟨n, some (s.created + windowSeconds * 1000)⟩)
    (hlive : s.key.live now = s.key) (hn : 1 ≤ n) (hcreated : s.created ≤ s.time)
    (haccepted : acceptedCalls (·.counter = s.counter) s.log = min limit n) :
    Accounts limit windowSeconds (s.call limit windowSeconds now) := by
  rw [call_counts (hlive.trans hkey) (by dsimp only; omega)]
  refine ⟨?_, ?_, ?_, ?_, ?_, ?_, ?_, ?_⟩
  · rintro call (_ | ⟨_, hcall⟩)
    · exact Nat.le_refl _
    · exact Nat.le_trans (h.times call hcall) hnow
  · rintro call (_ | ⟨_, hcall⟩)
    · exact Nat.le_refl _
    · exact h.counters call hcall
  · rintro call (_ | ⟨_, hcall⟩) hlt
    · exact absurd hlt (Nat.lt_irrefl _)
    · exact h.before call hcall hlt
  · rintro call (_ | ⟨_, hcall⟩) heq
    · exact Nat.le_trans hcreated hnow
    · exact h.since call hcall heq
  · rintro call (_ | ⟨_, hcall⟩) hfar
    · dsimp only at hfar
      omega
    · exact h.apart call hcall hfar
  · rintro call (_ | ⟨_, hcall⟩) later (_ | ⟨_, hlater⟩) hfar
    · dsimp only at hfar
      omega
    · have hle := h.counters later hlater
      dsimp only at hfar
      omega
    · have hapart := h.apart call hcall (by dsimp only at hfar; omega)
      dsimp only
      omega
    · exact h.spaced call hcall later hlater hfar
  · intro counter
    have hle := h.perKey counter
    rw [acceptedCalls_cons]
    split
    · next hone =>
        obtain ⟨hyes, rfl⟩ := hone
        have hroom : (n : Int) + 1 ≤ limit := of_decide_eq_true hyes
        dsimp only
        omega
    · omega
  · refine Or.inr ⟨n + 1, rfl, by omega, Nat.le_trans hcreated hnow, ?_⟩
    rw [acceptedCalls_cons, haccepted]
    by_cases hroom : (n : Int) + 1 ≤ limit
    · simp [hroom]
      omega
    · simp [hroom]
      omega

theorem accounts_of_reachable (h : (calls limit windowSeconds).Reachable s) :
    Accounts limit windowSeconds s := by
  refine h.invariant ?_ ?_
  · rintro s ⟨hkey, hcounter, hlog⟩
    exact accounts_init hkey hcounter hlog
  · intro s now s' hs _ hstep
    obtain ⟨hnow, rfl⟩ := calls_step hstep
    by_cases hcreates : s.Creates now
    · exact hs.creates hnow hcreates
    · have hlive := (Key.live_cases s.key now).resolve_left hcreates
      rcases hs.key with ⟨hnone, -⟩ | ⟨n, hkey, hn, hcreated, haccepted⟩
      · exact absurd (hlive.trans hnone) hcreates
      · exact hs.counts hnow hkey hlive hn hcreated haccepted

/-! ## The bounds -/

/-- What is one of two kinds is counted with one of them. -/
theorem acceptedCalls_le_add {p q r : AllowCall → Prop} [DecidablePred p] [DecidablePred q]
    [DecidablePred r] {log : List AllowCall} (h : ∀ call ∈ log, p call → q call ∨ r call) :
    acceptedCalls p log ≤ acceptedCalls q log + acceptedCalls r log := by
  induction log with
  | nil => exact Nat.zero_le _
  | cons call log ih =>
      have hrest := ih fun other hother => h other (List.mem_cons_of_mem _ hother)
      have hcall := h call (List.mem_cons_self ..)
      simp only [acceptedCalls_cons]
      by_cases hp : call.accepted = true ∧ p call
      · rcases hcall hp.2 with hq | hr
        · rw [if_pos hp, if_pos ⟨hp.1, hq⟩]
          omega
        · rw [if_pos hp, if_pos (show call.accepted = true ∧ r call from ⟨hp.1, hr⟩)]
          omega
      · rw [if_neg hp]
        omega

/-- An interval as long as the window meets two keys at most. -/
theorem Accounts.perInterval (h : Accounts limit windowSeconds s) (start : Nat) : acceptedCalls
    (fun call => start ≤ call.time ∧ call.time < start + windowSeconds * 1000) s.log ≤ 2 * limit := by
  by_cases hnone : ∃ counter, ∃ call ∈ s.log, call.counter = counter ∧ start ≤ call.time ∧
      call.time < start + windowSeconds * 1000
  · -- the earliest key that the interval meets, and the next one
    obtain ⟨first, hfirst, hfrom, hto⟩ := Nat.find_spec hnone
    have hleast := fun counter (hcounter : counter < Nat.find hnone) => Nat.find_min hnone hcounter
    refine Nat.le_trans (acceptedCalls_le_add (q := (·.counter = Nat.find hnone))
      (r := (·.counter = Nat.find hnone + 1)) ?_) ?_
    · rintro call hcall ⟨hstart, hend⟩
      have hlow : ¬ call.counter < Nat.find hnone := fun hlt =>
        hleast _ hlt ⟨call, hcall, rfl, hstart, hend⟩
      have hhigh : ¬ first.counter + 2 ≤ call.counter := by
        intro hfar
        have hspaced := h.spaced first hfirst call hcall hfar
        omega
      omega
    · have hone := h.perKey (Nat.find hnone)
      have hother := h.perKey (Nat.find hnone + 1)
      omega
  · rw [acceptedCalls_eq_zero]
    · exact Nat.zero_le _
    · intro call hcall hin
      exact hnone ⟨_, call, hcall, rfl, hin⟩

/-- A refused call has `limit` accepted ones in the window before it. -/
theorem Accounts.refusal (h : Accounts limit windowSeconds s) {now : Nat}
    (hrefused : (allow limit windowSeconds now s.key).1.1 = false) :
    limit ≤ acceptedCalls (fun call => now ≤ call.time + windowSeconds * 1000) s.log := by
  have hfull : ¬ s.key.count now + 1 ≤ limit := by
    intro hroom
    have haccepted : (allow limit windowSeconds now s.key).1.1 = true :=
      (accepted_iff now s.key).mpr hroom
    rw [hrefused] at haccepted
    cases haccepted
  by_cases hcreates : s.Creates now
  · have hcount : s.key.count now = 0 := by
      unfold Key.count
      rw [hcreates]
      rfl
    omega
  · have hlive := (Key.live_cases s.key now).resolve_left hcreates
    rcases h.key with ⟨hnone, -⟩ | ⟨n, hkey, hn, hcreated, haccepted⟩
    · exact absurd (hlive.trans hnone) hcreates
    · have hcount : s.key.count now = n := by
        unfold Key.count
        rw [hlive, hkey]
        rfl
      have hwithin : now ≤ s.created + windowSeconds * 1000 := by
        by_contra hover
        apply hcreates
        unfold Calls.Creates
        rw [hkey]
        exact Key.live_eq_none rfl (Nat.not_le.mp hover)
      -- so many calls as the key counts came since it was created
      calc limit = acceptedCalls (·.counter = s.counter) s.log := by omega
        _ ≤ _ := acceptedCalls_mono fun call hcall heq => by
          have hsince := h.since call hcall heq
          omega

theorem Accounts.expires (h : Accounts limit windowSeconds s) {e : Entry} (he : s.key = some e) :
    ∃ t, e.expiresAt = some t ∧ t ≤ s.time + windowSeconds * 1000 := by
  rcases h.key with ⟨hnone, -⟩ | ⟨n, hkey, -, hcreated, -⟩
  · cases hnone.symm.trans he
  · cases hkey.symm.trans he
    refine ⟨_, rfl, ?_⟩
    omega

/-- **The rate limit of calls.** In every sequence of calls a key lets `limit` calls through, an
interval as long as the window twice as many; a call is refused only when `limit` calls went through
in the window before it, and no key stays. -/
theorem allow_bounded (limit windowSeconds : Nat) :
    ∀ s, (calls limit windowSeconds).Reachable s → Bounded limit windowSeconds s := by
  intro s h
  have haccounts := accounts_of_reachable h
  exact ⟨haccounts.perKey, haccounts.perInterval, fun _ _ => haccounts.refusal,
    fun _ => haccounts.expires⟩

end run

/-! ## A run over the edge of a window -/

/-- Two calls at the end of a window and two at the start of the next one. -/
def edgeCalls : Calls :=
  ((calls 2 60).run ⟨0, none, 0, 0, []⟩ [0, 59000, 59500, 60001, 60002]).get (by decide)

theorem edgeCalls_bounded : Bounded 2 60 edgeCalls ∧
    acceptedCalls (fun call => 59000 ≤ call.time ∧ call.time < 59000 + 60 * 1000) edgeCalls.log = 3 := by
  have hrun : (calls 2 60).run ⟨0, none, 0, 0, []⟩ [0, 59000, 59500, 60001, 60002] = some edgeCalls :=
    (Option.some_get _).symm
  exact ⟨allow_bounded 2 60 _ (.of_run (.init ⟨rfl, rfl, rfl⟩) hrun), by decide⟩

end EnergyAgent.Reliability
