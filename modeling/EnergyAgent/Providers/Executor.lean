import EnergyAgent.Agent.Degradation
import EnergyAgent.Providers.Retry

/-!
# The tool executor

`execute` of `tools/executor.py` from the breaker's admission on: two tries of the handler, each
logged before it is reported to the breaker. The logger may raise, inside the `try` and in the
handlers of its exceptions.
-/

namespace EnergyAgent.Providers

open EnergyAgent.Agent EnergyAgent.Reliability

/-- A try: what the handler returns or raises (a `TimeoutError` when it takes too long), and what
`tool_logger` does with the result and with the failure. -/
structure ToolAttempt where
  handled : Except ProviderError ToolStatus
  logged : Except ProviderError Unit
  failureLogged : Except ProviderError Unit

namespace ToolAttempt

variable (x : ToolAttempt)

/-- The body of the `try`: the status of the result, once it is logged. -/
def tried : Except ProviderError ToolStatus := do
  let status ← x.handled
  x.logged
  return status

/-- A `_failure` that is logged and reported. -/
def failure (status : ToolStatus) : CallEnd ToolStatus :=
  match x.failureLogged with
  | .ok () => ⟨[.failure true], .ok status⟩
  | .error e => ⟨[], .error e⟩

end ToolAttempt

/-- `except (TimeoutError, ConnectionError)` -/
def interruptedTool (e : ProviderError) : Bool := e = .timeout ∨ e = .connection

/-- The loop of tries: `left` more are allowed after the `k`-th. -/
def executeLoop (attempts : Nat → ToolAttempt) : Nat → Nat → CallEnd ToolStatus
  | left, k =>
      match (attempts k).tried with
      | .ok status => ⟨[if status.Failure then .failure true else .success], .ok status⟩
      | .error e =>
          if interruptedTool e then
            match left with
            | 0 => (attempts k).failure (if e = .timeout then .timeout else .degraded)
            | left + 1 => executeLoop attempts left (k + 1)
          else if e = .cancelled then ⟨[], .error e⟩
          else (attempts k).failure .failed

def defaultMaxAttempts : Nat := 2

/-- `execute`, once the breaker has admitted the call. -/
def execute (attempts : Nat → ToolAttempt) : CallEnd ToolStatus :=
  executeLoop attempts (defaultMaxAttempts - 1) 0

/-- The last try ends with a report: it is logged, as a result or as a failure. -/
def ToolAttempt.Reports (x : ToolAttempt) : Prop :=
  match x.tried with
  | .ok _ => True
  | .error e => e ≠ .cancelled ∧ x.failureLogged = .ok ()

/-- `execute` settles: its last try is reported, the second if the first timed out or lost its
connection. -/
def ToolSettles (attempts : Nat → ToolAttempt) : Prop :=
  match (attempts 0).tried with
  | .ok _ => True
  | .error e => if interruptedTool e then (attempts 1).Reports else (attempts 0).Reports

theorem ToolAttempt.failure_reports {x : ToolAttempt} {status : ToolStatus} :
    (x.failure status).reports ≠ [] ↔ x.failureLogged = .ok () := by
  unfold ToolAttempt.failure
  split
  · next hlogged => simp [hlogged]
  · next e hlogged => simp [hlogged]

theorem executeLoop_last_reports {attempts : Nat → ToolAttempt} {k : Nat} :
    (executeLoop attempts 0 k).reports ≠ [] ↔ (attempts k).Reports := by
  unfold executeLoop ToolAttempt.Reports
  split
  · simp
  · next e htried =>
      by_cases hinterrupted : interruptedTool e
      · have hcancelled : e ≠ .cancelled := by
          rintro rfl
          simp [interruptedTool] at hinterrupted
        simp [hinterrupted, ToolAttempt.failure_reports, hcancelled]
      · by_cases hcancelled : e = .cancelled
        · rw [hcancelled]
          simp [interruptedTool]
        · simp [hinterrupted, hcancelled, ToolAttempt.failure_reports]

/-- **A tool call reports exactly if it settles.** -/
theorem execute_reports {attempts : Nat → ToolAttempt} :
    (execute attempts).reports ≠ [] ↔ ToolSettles attempts := by
  unfold execute ToolSettles
  show (executeLoop attempts 1 0).reports ≠ [] ↔ _
  unfold executeLoop
  split
  · simp
  · next e htried =>
      by_cases hinterrupted : interruptedTool e
      · simp only [hinterrupted, if_true]
        exact executeLoop_last_reports
      · simp only [hinterrupted, Bool.false_eq_true, if_false]
        unfold ToolAttempt.Reports
        rw [htried]
        by_cases hcancelled : e = .cancelled
        · simp [hcancelled]
        · simp [hcancelled, ToolAttempt.failure_reports]

end EnergyAgent.Providers
