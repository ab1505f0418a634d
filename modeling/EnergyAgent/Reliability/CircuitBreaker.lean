import EnergyAgent.Lib.Transition
import Mathlib.Data.Rat.Defs
import Mathlib.Algebra.Order.Ring.Rat
import Mathlib.Tactic.Linarith

/-!
# The circuit breaker

`reliability/circuit_breaker.py`, and any number of callers of one breaker at a time. A caller
reports a result without saying when it was admitted, so a result of a call that was admitted while
the circuit was closed may reach the breaker while it recovers.
-/

namespace EnergyAgent.Reliability

open EnergyAgent.Lib

/-- `opened` is OPEN. -/
inductive CircuitState
  | closed | opened | halfOpen
  deriving DecidableEq, Repr

structure CircuitBreakerPolicy where
  failureThreshold : Int := 3
  recoveryTimeoutSeconds : Rat := 30

structure CircuitBreaker where
  state : CircuitState := .closed
  failureCount : Nat := 0
  openedAt : Option Rat := none
  halfOpenProbeActive : Bool := false
  deriving DecidableEq, Repr

/-- What a caller reports: `record_success`, or `record_failure` with its `countable`. -/
inductive Report
  | success
  | failure (countable : Bool)
  deriving DecidableEq, Repr

section breaker

variable (policy : CircuitBreakerPolicy)

namespace CircuitBreaker

/-- `allow` behind the look at OPEN: one probe at a time. -/
def admitProbe (b : CircuitBreaker) : CircuitBreaker × Bool :=
  if b.halfOpenProbeActive then (b, false) else ({ b with halfOpenProbeActive := true }, true)

/-- `allow`: what it leaves of the breaker, and whether the call is admitted (else it raises). The
clock is read once when `opened_at` is not set, and once for the timeout. -/
def allow (b : CircuitBreaker) (first now : Rat) : CircuitBreaker × Bool :=
  match b.state with
  | .closed => (b, true)
  | .opened =>
      let openedAt := b.openedAt.getD first
      if now - openedAt < policy.recoveryTimeoutSeconds then
        ({ b with openedAt := some openedAt }, false)
      else
        admitProbe
          { b with openedAt := some openedAt, state := .halfOpen, halfOpenProbeActive := false }
  | .halfOpen => b.admitProbe

/-- `record_success` -/
def recordSuccess (_ : CircuitBreaker) : CircuitBreaker where
  state := .closed
  failureCount := 0
  openedAt := none
  halfOpenProbeActive := false

/-- `record_failure` -/
def recordFailure (b : CircuitBreaker) (countable : Bool) (now : Rat) : CircuitBreaker :=
  if countable then
    if b.state = .halfOpen ∨ policy.failureThreshold ≤ (b.failureCount + 1 : Nat) then
      { b with
        failureCount := b.failureCount + 1
        state := .opened
        openedAt := some now
        halfOpenProbeActive := false }
    else { b with failureCount := b.failureCount + 1, halfOpenProbeActive := false }
  else { b with halfOpenProbeActive := false }

def record (b : CircuitBreaker) (now : Rat) : Report → CircuitBreaker
  | .success => b.recordSuccess
  | .failure countable => b.recordFailure policy countable now

end CircuitBreaker

end breaker

/-! ## Callers -/

/-- A call that runs. `probeOf` is the recovery that it was admitted in, counted from 1, if the
circuit was not closed. -/
structure Admission where
  id : Nat
  probeOf : Option Nat
  deriving DecidableEq, Repr

/-- A breaker with its callers: the last reading of the clock, when the circuit last became OPEN, how
often it has become HALF_OPEN, and the calls that run. -/
structure Callers where
  breaker : CircuitBreaker
  now : Rat
  openSince : Rat
  recoveries : Nat
  running : List Admission
  nextId : Nat
  deriving DecidableEq, Repr

inductive CallerMove
  /-- Somebody calls `allow`, which reads the clock at these times. -/
  | allow (first now : Rat)
  /-- A call that runs reports its result. -/
  | finish (id : Nat) (report : Report) (now : Rat)

namespace Callers

variable (policy : CircuitBreakerPolicy)

/-- The breaker after a move; the bookkeeping follows its state. -/
def moveTo (s : Callers) (breaker : CircuitBreaker) (now : Rat) : Callers :=
  { s with
    breaker := breaker
    now := now
    openSince :=
      if breaker.state = .opened ∧ s.breaker.state ≠ .opened then now else s.openSince
    recoveries :=
      if breaker.state = .halfOpen ∧ s.breaker.state ≠ .halfOpen then s.recoveries + 1
      else s.recoveries }

/-- A call that has been admitted. -/
def letIn (s : Callers) : Callers :=
  { s with
    running := s.running ++
      [⟨s.nextId, if s.breaker.state = .closed then none else some s.recoveries⟩]
    nextId := s.nextId + 1 }

def step (s : Callers) : CallerMove → Option Callers
  | .allow first now =>
      if s.now ≤ first ∧ first ≤ now then
        let (breaker, admitted) := s.breaker.allow policy first now
        let moved := s.moveTo breaker now
        some (if admitted then moved.letIn else moved)
      else none
  | .finish id report now =>
      if s.now ≤ now ∧ ∃ call ∈ s.running, call.id = id then
        some { s.moveTo (s.breaker.record policy now report) now with
          running := s.running.filter fun call => call.id ≠ id }
      else none

def system : TransitionSystem Callers CallerMove where
  init s := s.breaker = {} ∧ s.running = [] ∧ s.recoveries = 0
  step := step policy

/-- The call was admitted since the circuit last became HALF_OPEN. -/
def IsProbe (s : Callers) (call : Admission) : Prop := call.probeOf = some s.recoveries

/-- **The breaker limits its callers while it recovers**: an OPEN circuit admits nobody before its
timeout, a HALF_OPEN one has at most one probe running, and only the success of a probe closes it. -/
structure Recovers (s : Callers) (move : CallerMove) (t : Callers) : Prop where
  waits : ∀ first now, move = .allow first now → s.breaker.state = .opened →
    t.nextId ≠ s.nextId → policy.recoveryTimeoutSeconds ≤ now - s.openSince
  single : t.breaker.state = .halfOpen → ∀ c ∈ t.running, ∀ d ∈ t.running,
    t.IsProbe c → t.IsProbe d → c.id = d.id
  closes : s.breaker.state ≠ .closed → t.breaker.state = .closed →
    ∃ c ∈ s.running, s.IsProbe c ∧ ∃ now, move = .finish c.id .success now

/-- The result comes in time: a success while the circuit is not closed is that of a probe, and so is
a failure that does not count while a probe of a HALF_OPEN circuit runs. -/
def Timely (s : Callers) : CallerMove → Prop
  | .allow _ _ => True
  | .finish id report _ => (∀ c ∈ s.running, c.id = id → s.IsProbe c) ∨
      (report = .success → s.breaker.state = .closed) ∧
      (report = .failure false → s.breaker.state = .halfOpen → ∀ c ∈ s.running, ¬ s.IsProbe c)

/-- What holds as long as every result comes in time. -/
structure Orderly (s : Callers) : Prop where
  opened : s.breaker.state = .opened → ∃ at', s.breaker.openedAt = some at' ∧ s.openSince ≤ at'
  past : s.breaker.state = .opened → s.openSince ≤ s.now
  bounded : ∀ c ∈ s.running, ∀ k, c.probeOf = some k → k ≤ s.recoveries
  single : s.breaker.state = .halfOpen → ∀ c ∈ s.running, ∀ d ∈ s.running,
    s.IsProbe c → s.IsProbe d → c.id = d.id
  free : s.breaker.state = .halfOpen → s.breaker.halfOpenProbeActive = false →
    ∀ c ∈ s.running, ¬ s.IsProbe c

end Callers

/-! ## One step -/

/-- What `allow` does. -/
theorem CircuitBreaker.allow_cases (policy : CircuitBreakerPolicy) (b : CircuitBreaker)
    (first now : Rat) :
    (b.state = .closed ∧ b.allow policy first now = (b, true)) ∨
    (b.state = .opened ∧ now - b.openedAt.getD first < policy.recoveryTimeoutSeconds ∧
      b.allow policy first now = ({ b with openedAt := some (b.openedAt.getD first) }, false)) ∨
    (b.state = .opened ∧ policy.recoveryTimeoutSeconds ≤ now - b.openedAt.getD first ∧
      b.allow policy first now =
        ({ b with
          openedAt := some (b.openedAt.getD first)
          state := .halfOpen
          halfOpenProbeActive := true }, true)) ∨
    (b.state = .halfOpen ∧ b.halfOpenProbeActive = true ∧ b.allow policy first now = (b, false)) ∨
    (b.state = .halfOpen ∧ b.halfOpenProbeActive = false ∧
      b.allow policy first now = ({ b with halfOpenProbeActive := true }, true)) := by
  unfold CircuitBreaker.allow
  cases hstate : b.state with
  | closed => simp
  | opened =>
      by_cases hearly : now - b.openedAt.getD first < policy.recoveryTimeoutSeconds
      · simp [hearly]
      · simp [hearly, CircuitBreaker.admitProbe, not_lt.mp hearly]
  | halfOpen =>
      cases hactive : b.halfOpenProbeActive with
      | true => simp [CircuitBreaker.admitProbe, hactive]
      | false => simp [CircuitBreaker.admitProbe, hactive, hstate]

/-- What a report does. -/
theorem CircuitBreaker.record_cases (policy : CircuitBreakerPolicy) (b : CircuitBreaker) (now : Rat)
    (report : Report) :
    (report = .success ∧ (b.record policy now report).state = .closed) ∨
    (report = .failure true ∧ (b.record policy now report).state = .opened ∧
      (b.record policy now report).openedAt = some now) ∨
    (report = .failure true ∧ b.state ≠ .halfOpen ∧
      (b.record policy now report).state = b.state ∧
      (b.record policy now report).openedAt = b.openedAt) ∨
    (report = .failure false ∧ b.record policy now report =
      { b with halfOpenProbeActive := false }) := by
  cases report with
  | success => exact Or.inl ⟨rfl, rfl⟩
  | failure countable =>
      cases countable with
      | false => exact Or.inr (Or.inr (Or.inr ⟨rfl, rfl⟩))
      | true =>
          right
          unfold CircuitBreaker.record CircuitBreaker.recordFailure
          by_cases hopens : b.state = .halfOpen ∨
              policy.failureThreshold ≤ (b.failureCount + 1 : Nat)
          · left
            simp only [if_pos hopens]
            simp
          · right
            left
            have hstate : b.state ≠ .halfOpen := fun h => hopens (Or.inl h)
            simp only [if_neg hopens]
            simp [hstate]

namespace Callers

variable {policy : CircuitBreakerPolicy} {s t : Callers}

theorem step_allow {first now : Rat} (h : step policy s (.allow first now) = some t) :
    s.now ≤ first ∧ first ≤ now ∧
      t = if (s.breaker.allow policy first now).2 then
          (s.moveTo (s.breaker.allow policy first now).1 now).letIn
        else s.moveTo (s.breaker.allow policy first now).1 now := by
  simp only [step] at h
  split at h
  · next hclock => exact ⟨hclock.1, hclock.2, (Option.some.inj h).symm⟩
  · cases h

theorem step_finish {id : Nat} {report : Report} {now : Rat}
    (h : step policy s (.finish id report now) = some t) :
    s.now ≤ now ∧ (∃ call ∈ s.running, call.id = id) ∧
      t = { s.moveTo (s.breaker.record policy now report) now with
        running := s.running.filter fun call => call.id ≠ id } := by
  simp only [step] at h
  split at h
  · next hcall => exact ⟨hcall.1, hcall.2, (Option.some.inj h).symm⟩
  · cases h

/-- Admitting a call keeps the order. -/
theorem orderly_allow {first now : Rat} (hs : s.Orderly)
    (h : step policy s (.allow first now) = some t) :
    t.Orderly ∧ Recovers policy s (.allow first now) t := by
  obtain ⟨hfirst, hnow, rfl⟩ := step_allow h
  rcases s.breaker.allow_cases policy first now with ⟨hstate, hallow⟩ |
    ⟨hstate, hearly, hallow⟩ | ⟨hstate, hlate, hallow⟩ | ⟨hstate, hactive, hallow⟩ |
    ⟨hstate, hfree, hallow⟩
  · -- closed
    rw [hallow]
    refine ⟨⟨?_, ?_, ?_, ?_, ?_⟩, ⟨?_, ?_, ?_⟩⟩
    all_goals simp [moveTo, letIn, hstate]
    intro c hc k hk
    rcases hc with hc | rfl
    · exact hs.bounded c hc k hk
    · cases hk
  · -- open, too early
    obtain ⟨opened, hopened, hsince⟩ := hs.opened hstate
    rw [hallow]
    refine ⟨⟨?_, ?_, ?_, ?_, ?_⟩, ⟨?_, ?_, ?_⟩⟩
    all_goals simp [moveTo, hstate]
    · simpa [hopened] using hsince
    · have := hs.past hstate
      linarith
    · exact hs.bounded
  · -- open, and the timeout has passed
    obtain ⟨opened, hopened, hsince⟩ := hs.opened hstate
    rw [hopened] at hlate
    have hnew : ∀ c ∈ s.running, c.probeOf ≠ some (s.recoveries + 1) := by
      intro c hc hprobe
      have := hs.bounded c hc _ hprobe
      omega
    rw [hallow]
    refine ⟨⟨?_, ?_, ?_, ?_, ?_⟩, ⟨?_, ?_, ?_⟩⟩
    all_goals simp [moveTo, letIn, hstate, IsProbe]
    · rintro c (hc | rfl) k hk
      · have := hs.bounded c hc k hk
        omega
      · cases hk
        exact le_rfl
    · rintro c (hc | rfl) d (hd | rfl) hcProbe hdProbe
      · exact absurd hcProbe (hnew c hc)
      · exact absurd hcProbe (hnew c hc)
      · exact absurd hdProbe (hnew d hd)
      · rfl
    · have hlate' : policy.recoveryTimeoutSeconds ≤ now - opened := hlate
      linarith
    · rintro c (hc | rfl) d (hd | rfl) hcProbe hdProbe
      · exact absurd hcProbe (hnew c hc)
      · exact absurd hcProbe (hnew c hc)
      · exact absurd hdProbe (hnew d hd)
      · rfl
  · -- half-open, with a probe
    rw [hallow]
    refine ⟨⟨?_, ?_, ?_, ?_, ?_⟩, ⟨?_, ?_, ?_⟩⟩
    all_goals simp [moveTo, hstate, IsProbe, hactive]
    · exact hs.bounded
    · exact hs.single hstate
    · exact hs.single hstate
  · -- half-open, without one
    have hnone := hs.free hstate hfree
    rw [hallow]
    refine ⟨⟨?_, ?_, ?_, ?_, ?_⟩, ⟨?_, ?_, ?_⟩⟩
    all_goals simp [moveTo, letIn, hstate, IsProbe]
    · rintro c (hc | rfl) k hk
      · exact hs.bounded c hc k hk
      · cases hk
        exact le_rfl
    · rintro c (hc | rfl) d (hd | rfl) hcProbe hdProbe
      · exact absurd hcProbe (hnone c hc)
      · exact absurd hcProbe (hnone c hc)
      · exact absurd hdProbe (hnone d hd)
      · rfl
    · rintro c (hc | rfl) d (hd | rfl) hcProbe hdProbe
      · exact absurd hcProbe (hnone c hc)
      · exact absurd hcProbe (hnone c hc)
      · exact absurd hdProbe (hnone d hd)
      · rfl

/-- A result that comes in time keeps the order. -/
theorem orderly_finish {id : Nat} {report : Report} {now : Rat} (hs : s.Orderly)
    (htimely : s.Timely (.finish id report now))
    (h : step policy s (.finish id report now) = some t) :
    t.Orderly ∧ Recovers policy s (.finish id report now) t := by
  obtain ⟨hnow, ⟨call, hcall, hid⟩, rfl⟩ := step_finish h
  rcases s.breaker.record_cases policy now report with ⟨rfl, hclosed⟩ | ⟨rfl, hopened, hsince⟩ |
    ⟨rfl, hnot, hsame, hsince⟩ | ⟨rfl, hreleased⟩
  · -- a success closes the circuit
    refine ⟨⟨?_, ?_, ?_, ?_, ?_⟩, ⟨?_, ?_, ?_⟩⟩
    all_goals simp [moveTo, hclosed]
    · intro c hc _ k hk
      exact hs.bounded c hc k hk
    · intro hstate
      rcases htimely with hprobe | ⟨hsuccess, -⟩
      · exact ⟨call, hcall, hprobe call hcall hid, hid.symm⟩
      · exact absurd (hsuccess rfl) hstate
  · -- a failure opens it
    refine ⟨⟨?_, ?_, ?_, ?_, ?_⟩, ⟨?_, ?_, ?_⟩⟩
    all_goals simp [moveTo, hopened]
    · refine ⟨now, hsince, ?_⟩
      split
      · next hstate => exact (hs.past hstate).trans hnow
      · exact le_rfl
    · split
      · next hstate => exact (hs.past hstate).trans hnow
      · exact le_rfl
    · intro c hc _ k hk
      exact hs.bounded c hc k hk
  · -- a failure below the threshold
    refine ⟨⟨?_, ?_, ?_, ?_, ?_⟩, ⟨?_, ?_, ?_⟩⟩
    all_goals simp [moveTo, hsame, hnot, hsince]
    · intro hstate
      simpa [hstate] using hs.opened hstate
    · intro hstate
      simpa [hstate] using (hs.past hstate).trans hnow
    · intro c hc _ k hk
      exact hs.bounded c hc k hk
  · -- a failure that does not count releases the probe
    have hnone : s.breaker.state = .halfOpen → ∀ c ∈ s.running, c.id ≠ id → ¬ s.IsProbe c := by
      intro hstate c hc hother hprobe
      rcases htimely with hown | ⟨-, hquiet⟩
      · apply hother
        rw [← hid]
        exact hs.single hstate c hc call hcall hprobe (hown call hcall hid)
      · exact hquiet rfl hstate c hc hprobe
    rw [hreleased]
    refine ⟨⟨?_, ?_, ?_, ?_, ?_⟩, ⟨?_, ?_, ?_⟩⟩
    all_goals simp [moveTo]
    · intro hstate
      simpa [hstate] using hs.opened hstate
    · intro hstate
      simpa [hstate] using (hs.past hstate).trans hnow
    · intro c hc _ k hk
      exact hs.bounded c hc k hk
    · intro hstate c hc hcOther d hd hdOther hcProbe _
      have hcProbe' : s.IsProbe c := by simpa [IsProbe, hstate] using hcProbe
      exact absurd hcProbe' (hnone hstate c hc hcOther)
    · intro hstate c hc hcOther hcProbe
      have hcProbe' : s.IsProbe c := by simpa [IsProbe, hstate] using hcProbe
      exact hnone hstate c hc hcOther hcProbe'
    · intro hstate c hc hcOther d hd hdOther hcProbe _
      have hcProbe' : s.IsProbe c := by simpa [IsProbe, hstate] using hcProbe
      exact absurd hcProbe' (hnone hstate c hc hcOther)

/-! ## Every run -/

theorem orderly_step {move : CallerMove} (hs : s.Orderly) (htimely : s.Timely move)
    (h : step policy s move = some t) : t.Orderly ∧ Recovers policy s move t := by
  cases move with
  | allow first now => exact orderly_allow hs h
  | finish id report now => exact orderly_finish hs htimely h

theorem orderly_of_timely (h : (system policy).ReachableVia Timely s) : s.Orderly := by
  refine h.invariant ?_ ?_
  · rintro s ⟨hbreaker, hrunning, -⟩
    refine ⟨?_, ?_, ?_, ?_, ?_⟩
    all_goals simp [hbreaker, hrunning]
  · intro s move t hs htimely hstep
    exact (orderly_step hs htimely hstep).1

/-- **The breaker limits its callers in every run in which every result comes in time.** -/
theorem recovers_of_timely {move : CallerMove} (h : (system policy).ReachableVia Timely s)
    (htimely : s.Timely move) (hstep : (system policy).step s move = some t) :
    Recovers policy s move t :=
  (orderly_step (orderly_of_timely h) htimely hstep).2

instance (s : Callers) (call : Admission) : Decidable (s.IsProbe call) :=
  inferInstanceAs (Decidable (_ = _))

instance (s : Callers) : (move : CallerMove) → Decidable (s.Timely move)
  | .allow _ _ => isTrue trivial
  | .finish _ _ _ => inferInstanceAs (Decidable (_ ∨ _))

/-! ## Two runs -/

/-- One failure opens the circuit, for a second. -/
def samplePolicy : CircuitBreakerPolicy := ⟨1, 1⟩

def idle : Callers := ⟨{}, 0, 0, 0, [], 0⟩

theorem idle_init : (system samplePolicy).init idle := ⟨rfl, rfl, rfl⟩

/-- A failure opens the circuit, and a probe is admitted after the timeout. -/
def recovering : List CallerMove := [.allow 0 0, .finish 0 (.failure true) 0, .allow 2 2]

def probing : Callers := ⟨⟨.halfOpen, 1, some 0, true⟩, 2, 0, 1, [⟨1, some 1⟩], 2⟩

/-- The success of the probe closes the circuit. -/
theorem probe_closes :
    Recovers samplePolicy probing (.finish 1 .success 3) ⟨{}, 3, 0, 1, [], 2⟩ := by
  have hrun : (system samplePolicy).runChecked (fun s a => s.Timely a) idle recovering =
      some probing := by decide +kernel
  have hreached := TransitionSystem.ReachableVia.of_runChecked
    (fun s a hcheck => of_decide_eq_true hcheck) (.init idle_init) hrun
  exact recovers_of_timely hreached (by decide) rfl

/-- The circuit is open, and a call runs that was admitted before. -/
def opened : Callers := ⟨⟨.opened, 1, some 0, false⟩, 0, 0, 0, [⟨1, none⟩], 2⟩

/-- Its success closes the circuit. -/
theorem late_success_closes :
    ¬ ∀ (policy : CircuitBreakerPolicy) (s t : Callers) (move : CallerMove),
      (system policy).Reachable s → (system policy).step s move = some t →
      Recovers policy s move t := by
  intro hall
  have hrun : (system samplePolicy).run idle
      [.allow 0 0, .allow 0 0, .finish 0 (.failure true) 0] = some opened := by
    decide +kernel
  have hreached := TransitionSystem.Reachable.of_run (.init idle_init) hrun
  have hrecovers := hall samplePolicy opened ⟨{}, 0, 0, 0, [], 2⟩ (.finish 1 .success 0) hreached
    rfl
  obtain ⟨call, hcall, hprobe, -⟩ := hrecovers.closes (by decide) rfl
  have hnone : ∀ c ∈ opened.running, ¬ opened.IsProbe c := by decide
  exact hnone call hcall hprobe

end Callers

end EnergyAgent.Reliability
