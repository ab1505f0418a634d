import EnergyAgent.Providers.Clients
import EnergyAgent.Providers.Executor

/-!
# The half-open probe

The users of the circuit breaker, each with what it reports in every way in which a call can end. A
half-open circuit admits one probe at a time, so a probe that ends without a report is the last call
that the circuit ever admits. `admits_of_settled` says that nothing else can keep a circuit shut.
-/

namespace EnergyAgent.Reliability

open EnergyAgent.Lib EnergyAgent.Providers

/-! ## The users -/

/-- A call of one of the users, with everything that it meets. -/
inductive Work
  /-- `ToolExecutor.execute` -/
  | tool (attempts : Nat → ToolAttempt)
  /-- `ModelGateway.generate` -/
  | model (parser : NumberParser) (valid : Json → Bool) (responsesApi : Bool) (maxRetries : Nat)
      (replies : Nat → Reply) (interrupted : Nat → Bool)
  /-- `OpenAICompatibleEmbeddingProvider._batch` -/
  | embedding (parser : NumberParser) (count dimension maxRetries : Nat) (replies : Nat → Reply)
      (interrupted : Nat → Bool)
  /-- `HttpRerankerProvider.rerank` -/
  | reranker (parser : NumberParser) (ids : List String) (maxRetries : Nat) (replies : Nat → Reply)
      (interrupted : Nat → Bool)
  /-- `MilvusVectorProvider.search` and `upsert` -/
  | milvus (outcome : Except ProviderError Unit)
  /-- `MilvusVectorProvider.ensure_collections` -/
  | collections (manual ticket case : Except ProviderError Unit)

/-- The reply that the gateway accepts. -/
def accepted (valid : Json → Bool) (content : Json) : Option Unit :=
  if valid content then some () else none

namespace Work

/-- What the call reports to its breaker. -/
def reports : Work → List Report
  | .tool attempts => (execute attempts).reports
  | .model parser valid responsesApi maxRetries replies interrupted =>
      (generate parser (accepted valid) responsesApi maxRetries replies interrupted).reports
  | .embedding parser count dimension maxRetries replies interrupted =>
      (embeddingBatch parser count dimension maxRetries replies interrupted).reports
  | .reranker parser ids maxRetries replies interrupted =>
      (rerank parser ids maxRetries replies interrupted).reports
  | .milvus outcome => (milvusCall outcome).reports
  | .collections manual ticket case => (ensureCollections manual ticket case).reports

/-- The call meets nothing that it does not report: no cancellation, no exception outside the
`except` clauses, and no failure of the logger that logs a failure. -/
def Settled : Work → Prop
  | .tool attempts => ToolSettles attempts
  | .model _ valid responsesApi maxRetries replies interrupted =>
      ∀ e, modelReply (accepted valid) responsesApi maxRetries replies interrupted = .error e →
        fallsBack e
  | .embedding parser count dimension maxRetries replies interrupted =>
      Settles .embeddingUnavailable [.embeddingResponse, .embeddingDimension]
        (readEmbeddings parser count dimension) replies interrupted maxRetries 0
  | .reranker parser ids maxRetries replies interrupted =>
      Settles .rerankerUnavailable [.rerankerResponse] (readScores parser ids) replies interrupted
        maxRetries 0
  | .milvus outcome => outcome ≠ .error .cancelled
  | .collections manual ticket case =>
      manual ≠ .error .cancelled ∧
        (manual = .ok () → ticket ≠ .error .cancelled ∧
          (ticket = .ok () → case ≠ .error .cancelled))

theorem milvusCall_reports {α : Type} {outcome : Except ProviderError α} :
    (milvusCall outcome).reports ≠ [] ↔ outcome ≠ .error .cancelled := by
  unfold milvusCall
  split
  · simp
  · simp
  · next e hother => simpa using hother

theorem generate_reports {α : Type} {parser : NumberParser} {validate : Json → Option α}
    {responsesApi : Bool} {maxRetries : Nat} {replies : Nat → Reply} {interrupted : Nat → Bool} :
    (generate parser validate responsesApi maxRetries replies interrupted).reports ≠ [] ↔
      ∀ e, modelReply validate responsesApi maxRetries replies interrupted = .error e →
        fallsBack e := by
  unfold generate
  cases modelReply validate responsesApi maxRetries replies interrupted with
  | error e =>
      by_cases hcaught : fallsBack e
      · simp [hcaught]
      · simp [hcaught]
  | ok reply =>
      refine iff_of_true ?_ (by simp)
      dsimp only
      split
      · simp
      · split
        · simp
        · simp

theorem ensureCollections_reports {manual ticket case : Except ProviderError Unit} :
    (ensureCollections manual ticket case).reports ≠ [] ↔
      manual ≠ .error .cancelled ∧
        (manual = .ok () → ticket ≠ .error .cancelled ∧
          (ticket = .ok () → case ≠ .error .cancelled)) := by
  have hensured : ∀ outcome, (ensured outcome).reports ≠ [] ↔ outcome ≠ .error .cancelled := by
    intro outcome
    unfold ensured
    split
    · simp
    · exact milvusCall_reports
  unfold ensureCollections
  rw [hensured]
  cases manual with
  | error e => simp [bind, Except.bind]
  | ok value =>
      cases ticket with
      | error e => simp [bind, Except.bind]
      | ok value => simp [bind, Except.bind]

/-- **A call reports exactly if it is settled.** -/
theorem reports_iff_settled {work : Work} : work.reports ≠ [] ↔ work.Settled := by
  cases work with
  | tool attempts => exact execute_reports
  | model parser valid responsesApi maxRetries replies interrupted => exact generate_reports
  | embedding parser count dimension maxRetries replies interrupted => exact retryLoop_reports
  | reranker parser ids maxRetries replies interrupted => exact retryLoop_reports
  | milvus outcome => exact milvusCall_reports
  | collections manual ticket case => exact ensureCollections_reports

end Work

/-! ## The breaker and its users -/

/-- A breaker with the calls that run, and the time of the last failure that counts. -/
structure Guarded where
  callers : Callers
  lastFailure : Option Rat
  deriving DecidableEq

inductive GuardedMove
  /-- A user calls `allow`. -/
  | allow (first now : Rat)
  /-- A call that runs comes to its end. -/
  | finish (id : Nat) (work : Work) (now : Rat)

namespace Guarded

variable (policy : CircuitBreakerPolicy)

def step (s : Guarded) : GuardedMove → Option Guarded
  | .allow first now =>
      (s.callers.step policy (.allow first now)).map fun callers => { s with callers := callers }
  | .finish id work now =>
      if s.callers.now ≤ now ∧ ∃ call ∈ s.callers.running, call.id = id then
        let breaker := work.reports.foldl (fun b report => b.record policy now report)
          s.callers.breaker
        some {
          callers := { s.callers.moveTo breaker now with
            running := s.callers.running.filter fun call => call.id ≠ id }
          lastFailure := if .failure true ∈ work.reports then some now else s.lastFailure }
      else none

def system : TransitionSystem Guarded GuardedMove where
  init s := (Callers.system policy).init s.callers ∧ s.lastFailure = none
  step := step policy

/-- A probe that ends is settled. -/
def ProbesSettle (s : Guarded) : GuardedMove → Prop
  | .allow _ _ => True
  | .finish id work _ =>
      ∀ c ∈ s.callers.running, c.id = id → c.probeOf ≠ none → work.Settled

/-- What keeps the circuit shut: a failure that is not long ago, or a probe that runs. -/
structure Accounted (s : Guarded) : Prop where
  opened : s.callers.breaker.state = .opened → ∃ at', s.callers.breaker.openedAt = some at' ∧
    ∃ failed, s.lastFailure = some failed ∧ at' ≤ failed
  past : ∀ failed, s.lastFailure = some failed → failed ≤ s.callers.now
  probe : s.callers.breaker.state = .halfOpen → s.callers.breaker.halfOpenProbeActive = true →
    ∃ c ∈ s.callers.running, c.probeOf ≠ none

variable {policy} {s t : Guarded}

theorem accounted_allow {first now : Rat} (hs : s.Accounted)
    (h : step policy s (.allow first now) = some t) : t.Accounted := by
  obtain ⟨callers, hstep, rfl⟩ := Option.map_eq_some_iff.mp h
  obtain ⟨hfirst, hnow, rfl⟩ := Callers.step_allow hstep
  have hclock : s.callers.now ≤ now := hfirst.trans hnow
  have hpast : ∀ failed, s.lastFailure = some failed → failed ≤ now :=
    fun failed hfailed => (hs.past failed hfailed).trans hclock
  rcases s.callers.breaker.allow_cases policy first now with ⟨hstate, hallow⟩ |
    ⟨hstate, -, hallow⟩ | ⟨hstate, -, hallow⟩ | ⟨hstate, hactive, hallow⟩ | ⟨hstate, -, hallow⟩
  · rw [hallow]
    refine ⟨?_, ?_, ?_⟩
    · simp [Callers.moveTo, Callers.letIn, hstate]
    · exact hpast
    · simp [Callers.moveTo, Callers.letIn, hstate]
  · obtain ⟨opened, hopened, failed, hfailed, hbefore⟩ := hs.opened hstate
    rw [hallow]
    refine ⟨?_, ?_, ?_⟩
    · intro _
      refine ⟨opened, ?_, failed, hfailed, hbefore⟩
      simp [Callers.moveTo, hopened]
    · exact hpast
    · simp [Callers.moveTo, hstate]
  · rw [hallow]
    refine ⟨?_, ?_, ?_⟩
    · simp [Callers.moveTo, Callers.letIn]
    · exact hpast
    · intro _ _
      refine ⟨⟨s.callers.nextId, some (s.callers.recoveries + 1)⟩, ?_, by simp⟩
      simp [Callers.moveTo, Callers.letIn, hstate]
  · rw [hallow]
    refine ⟨?_, ?_, ?_⟩
    · simp [Callers.moveTo, hstate]
    · exact hpast
    · intro _ _
      exact hs.probe hstate hactive
  · rw [hallow]
    refine ⟨?_, ?_, ?_⟩
    · simp [Callers.moveTo, Callers.letIn, hstate]
    · exact hpast
    · intro _ _
      refine ⟨⟨s.callers.nextId, some s.callers.recoveries⟩, ?_, by simp⟩
      simp [Callers.moveTo, Callers.letIn, hstate]

/-- What some reports at a time do: the probe is released, and an open circuit was opened by a failure
among them or was open before. -/
theorem foldl_record {reports : List Report} {b : CircuitBreaker} {now : Rat} :
    let b' := reports.foldl (fun b report => b.record policy now report) b
    (reports ≠ [] → b'.halfOpenProbeActive = false) ∧
    (b'.state = .opened → (Report.failure true ∈ reports ∧ b'.openedAt = some now) ∨
      (b.state = .opened ∧ b'.openedAt = b.openedAt)) := by
  induction reports generalizing b with
  | nil => simp
  | cons report reports ih =>
      obtain ⟨hreleased, hopened⟩ := @ih (b.record policy now report)
      have hone : (b.record policy now report).halfOpenProbeActive = false := by
        cases report with
        | success => rfl
        | failure countable =>
            unfold CircuitBreaker.record CircuitBreaker.recordFailure
            dsimp only
            split
            · split <;> rfl
            · rfl
      constructor
      · intro _
        cases reports with
        | nil => exact hone
        | cons => exact hreleased (List.cons_ne_nil _ _)
      · intro hstate
        rcases hopened hstate with ⟨hmem, hat⟩ | ⟨hbefore, hat⟩
        · exact Or.inl ⟨List.mem_cons_of_mem _ hmem, hat⟩
        · rcases b.record_cases policy now report with ⟨rfl, hclosed⟩ | ⟨rfl, -, hsince⟩ |
            ⟨rfl, -, hsame, hsince⟩ | ⟨rfl, hnew⟩
          · rw [hclosed] at hbefore
            cases hbefore
          · exact Or.inl ⟨List.mem_cons_self .., hat.trans hsince⟩
          · exact Or.inr ⟨hsame.symm.trans hbefore, hat.trans hsince⟩
          · refine Or.inr ⟨?_, ?_⟩
            · rw [hnew] at hbefore
              exact hbefore
            · rw [List.foldl_cons, hat, hnew]

theorem accounted_finish {id : Nat} {work : Work} {now : Rat} (hs : s.Accounted)
    (hsettled : s.ProbesSettle (.finish id work now))
    (h : step policy s (.finish id work now) = some t) : t.Accounted := by
  simp only [step] at h
  split at h
  swap
  · cases h
  next hcall =>
  obtain ⟨hclock, -⟩ := hcall
  obtain ⟨hreleased, hopened⟩ := @foldl_record policy work.reports s.callers.breaker now
  cases h
  refine ⟨?_, ?_, ?_⟩
  · intro hstate
    rcases hopened hstate with ⟨hfailure, hat⟩ | ⟨hbefore, hat⟩
    · exact ⟨now, hat, now, if_pos hfailure, le_rfl⟩
    · obtain ⟨at', hat', failed, hfailed, hle⟩ := hs.opened hbefore
      by_cases hfailure : Report.failure true ∈ work.reports
      · exact ⟨at', hat.trans hat', now, if_pos hfailure,
          hle.trans ((hs.past failed hfailed).trans hclock)⟩
      · exact ⟨at', hat.trans hat', failed, (if_neg hfailure).trans hfailed, hle⟩
  · intro failed hfailed
    by_cases hfailure : Report.failure true ∈ work.reports
    · have hnow : some now = some failed := (if_pos hfailure).symm.trans hfailed
      cases hnow
      exact le_rfl
    · have hbefore : s.lastFailure = some failed := (if_neg hfailure).symm.trans hfailed
      exact (hs.past failed hbefore).trans hclock
  · intro hstate hactive
    -- the probe runs on, since a probe that ends here has reported
    have hnone : work.reports = [] := by
      by_contra hsome
      exact Bool.false_ne_true ((hreleased hsome).symm.trans hactive)
    have hunchanged : work.reports.foldl (fun b report => b.record policy now report)
        s.callers.breaker = s.callers.breaker := by rw [hnone]; rfl
    have hstate' : s.callers.breaker.state = .halfOpen := by
      rw [← hunchanged]
      exact hstate
    have hactive' : s.callers.breaker.halfOpenProbeActive = true := by
      rw [← hunchanged]
      exact hactive
    obtain ⟨probe, hprobe, hprobing⟩ := hs.probe hstate' hactive'
    refine ⟨probe, List.mem_filter.mpr ⟨hprobe, ?_⟩, hprobing⟩
    rw [decide_eq_true_iff]
    intro hid
    exact Work.reports_iff_settled.mpr (hsettled probe hprobe hid hprobing) hnone

theorem accounted_of_settled (h : (system policy).ReachableVia ProbesSettle s) : s.Accounted := by
  refine h.invariant ?_ ?_
  · rintro s ⟨⟨hbreaker, -, -⟩, hfailure⟩
    refine ⟨?_, ?_, ?_⟩
    all_goals simp [hbreaker, hfailure]
  · intro s move t hs hsettled hstep
    cases move with
    | allow first now => exact accounted_allow hs hstep
    | finish id work now => exact accounted_finish hs hsettled hstep

/-- **A probe can always be made again**, in every run whose probes all settle: when no call runs and
the last failure is long enough ago, the breaker admits a call. -/
theorem admits_of_settled {first now : Rat} (h : (system policy).ReachableVia ProbesSettle s)
    (hquiet : s.callers.running = [])
    (hlate : ∀ failed, s.lastFailure = some failed →
      failed + policy.recoveryTimeoutSeconds ≤ now) :
    (s.callers.breaker.allow policy first now).2 = true := by
  have hs := accounted_of_settled h
  rcases s.callers.breaker.allow_cases policy first now with ⟨-, hallow⟩ |
    ⟨hstate, hearly, -⟩ | ⟨-, -, hallow⟩ | ⟨hstate, hactive, -⟩ | ⟨-, -, hallow⟩
  · rw [hallow]
  · obtain ⟨opened, hopened, failed, hfailed, hle⟩ := hs.opened hstate
    have hearly' : now - opened < policy.recoveryTimeoutSeconds := by
      rw [hopened] at hearly
      exact hearly
    have := hlate failed hfailed
    linarith
  · rw [hallow]
  · obtain ⟨probe, hprobe, -⟩ := hs.probe hstate hactive
    rw [hquiet] at hprobe
    cases hprobe
  · rw [hallow]

/-! ## Two runs -/

/-- `ProbesSettle`, by what the call reports. -/
def probesReport (s : Guarded) : GuardedMove → Bool
  | .allow _ _ => true
  | .finish id work _ =>
      s.callers.running.all fun c => c.id ≠ id ∨ c.probeOf = none ∨ work.reports ≠ []

theorem probesSettle_of_report {move : GuardedMove} (h : s.probesReport move = true) :
    s.ProbesSettle move := by
  cases move with
  | allow first now => trivial
  | finish id work now =>
      intro c hc hid hprobe
      have hcall := of_decide_eq_true (List.all_eq_true.mp h c hc)
      exact Work.reports_iff_settled.mp ((hcall.resolve_left (not_not_intro hid)).resolve_left hprobe)

/-- A request that the server answers with this status, and with an object without fields. -/
def answered (status : Nat) : Work :=
  .embedding ⟨fun _ => none, fun _ => none⟩ 1 1 0 (fun _ => .response status (some (.obj [])))
    fun _ => false

def idle : Guarded := ⟨Callers.idle, none⟩

theorem idle_init : (system Callers.samplePolicy).init idle := ⟨Callers.idle_init, rfl⟩

/-- A failure opens the circuit, and its probe gets an answer of this status. -/
def probed (status : Nat) : List GuardedMove :=
  [.allow 0 0, .finish 0 (answered 503) 0, .allow 2 2, .finish 1 (answered status) 2]

/-- The circuit is half-open and nobody calls. -/
def recovering (probeActive : Bool) : Guarded :=
  ⟨⟨⟨.halfOpen, 1, some 0, probeActive⟩, 2, 0, 1, [], 2⟩, some 0⟩

/-- A probe with an answer that has no vectors leaves room for the next one. -/
theorem empty_answer_admits :
    ((recovering false).callers.breaker.allow Callers.samplePolicy 2 2).2 = true := by
  have hrun : (system Callers.samplePolicy).runChecked probesReport idle (probed 200) =
      some (recovering false) := by
    decide +kernel
  have hreached := TransitionSystem.ReachableVia.of_runChecked
    (fun _ _ hcheck => probesSettle_of_report hcheck) (.init idle_init) hrun
  refine admits_of_settled hreached rfl ?_
  rintro failed ⟨⟩
  decide +kernel

/-- A probe with an answer of status 400 is never released. -/
theorem client_error_blocks :
    ¬ ∀ (policy : CircuitBreakerPolicy) (s : Guarded) (first now : Rat),
      (system policy).Reachable s → s.callers.running = [] → s.callers.now ≤ first → first ≤ now →
      (∀ failed, s.lastFailure = some failed → failed + policy.recoveryTimeoutSeconds ≤ now) →
      (s.callers.breaker.allow policy first now).2 = true := by
  intro hall
  have hrun : (system Callers.samplePolicy).run idle (probed 400) = some (recovering true) := by
    decide +kernel
  have hreached := TransitionSystem.Reachable.of_run (.init idle_init) hrun
  have hadmits := hall Callers.samplePolicy (recovering true) 1000 1000 hreached rfl
    (by decide +kernel) le_rfl (by
      rintro failed ⟨⟩
      decide +kernel)
  exact absurd hadmits (by decide +kernel)

end Guarded

end EnergyAgent.Reliability
