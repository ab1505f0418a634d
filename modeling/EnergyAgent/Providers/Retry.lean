import EnergyAgent.Lib.Json
import EnergyAgent.Reliability.CircuitBreaker

/-!
# Guarded calls

What the users of a circuit breaker share: the exceptions that reach them, and how a call ends that
the breaker has admitted, with what it has reported to the breaker by then. The embedding and the
reranker provider have one loop of retries, `_batch` and `rerank`.
-/

namespace EnergyAgent.Providers

open EnergyAgent.Lib EnergyAgent.Reliability

/-- The exceptions by the classes that the handlers tell apart. The four of `httpx` are its
`HTTPError`s. -/
inductive ProviderError
  /-- `asyncio.CancelledError`, which is no `Exception` -/
  | cancelled
  /-- `TimeoutError` -/
  | timeout
  /-- `ConnectionError` -/
  | connection
  | httpTimeout | httpNetwork | httpStatus | httpOther
  | python (e : PyError)
  | embeddingUnavailable | embeddingResponse | embeddingDimension
  | rerankerUnavailable | rerankerResponse
  | milvusUnavailable | milvusSchemaMismatch
  | retrievalChannelsFailed
  /-- Any other `Exception`. -/
  | other
  deriving DecidableEq, Repr

/-- An exception of a value that nobody has checked. -/
def reading {α : Type} (x : Except PyError α) : Except ProviderError α := x.mapError .python

/-- How an admitted call ends: what it reported to its breaker, and its result. -/
structure CallEnd (α : Type) where
  reports : List Report
  result : Except ProviderError α

/-- What an HTTP request comes to: a response, whose body may be no JSON, or an exception. -/
inductive Reply
  | response (status : Nat) (body : Option Json)
  | raised (e : ProviderError)

/-- `response.raise_for_status()` and `response.json()`. -/
def Reply.jsonOf (status : Nat) (body : Option Json) : Except ProviderError Json :=
  if status < 200 ∨ 300 ≤ status then .error .httpStatus
  else (body.map .ok).getD (.error (.python .value))

/-- The server asks for another try. -/
def overloaded (status : Nat) : Bool := status = 429 ∨ 500 ≤ status

section retries

variable {α : Type} (unavailable : ProviderError) (invalid : List ProviderError)
  (read : Json → Except ProviderError α)

/-- One request, and what is read in its response. -/
def attempt : Reply → Except ProviderError α
  | .raised e => .error e
  | .response status body =>
      if overloaded status then .error unavailable
      else do
        let json ← Reply.jsonOf status body
        read json

/-- The exceptions after which the loop tries again. -/
def retried (e : ProviderError) : Bool := e = .httpTimeout ∨ e = .httpNetwork ∨ e = unavailable

/-- The loop of retries: `left` more tries are allowed after the `k`-th. The call may be cancelled
while it sleeps after a try. -/
def retryLoop (replies : Nat → Reply) (interrupted : Nat → Bool) : Nat → Nat → CallEnd α
  | left, k =>
      match attempt unavailable read (replies k) with
      | .ok value => ⟨[.success], .ok value⟩
      | .error e =>
          if retried unavailable e then
            match left with
            | 0 => ⟨[.failure true], .error unavailable⟩
            | left + 1 =>
                if interrupted k then ⟨[], .error .cancelled⟩
                else retryLoop replies interrupted left (k + 1)
          else if e ∈ invalid then ⟨[.failure false], .error e⟩
          else ⟨[], .error e⟩

/-- The try ends the loop with a report. -/
def Reports (left : Nat) : Except ProviderError α → Prop
  | .ok _ => True
  | .error e => (retried unavailable e ∧ left = 0) ∨ (¬ retried unavailable e ∧ e ∈ invalid)

/-- The loop settles: some try ends it with a report, and those before are tried again. -/
def Settles (replies : Nat → Reply) (interrupted : Nat → Bool) (left k : Nat) : Prop :=
  ∃ n ≤ left, Reports unavailable invalid (left - n) (attempt unavailable read (replies (k + n))) ∧
    ∀ j < n, interrupted (k + j) = false ∧
      ∃ e, attempt unavailable read (replies (k + j)) = .error e ∧ retried unavailable e

variable {unavailable invalid read} {replies : Nat → Reply} {interrupted : Nat → Bool}

/-- **A loop reports exactly if it settles.** -/
theorem retryLoop_reports {left k : Nat} :
    (retryLoop unavailable invalid read replies interrupted left k).reports ≠ [] ↔
      Settles unavailable invalid read replies interrupted left k := by
  induction left generalizing k with
  | zero =>
      unfold retryLoop Settles
      cases hattempt : attempt unavailable read (replies k) with
      | ok value => simp [Reports, hattempt]
      | error e =>
          by_cases hretried : retried unavailable e
          · simp [Reports, hattempt, hretried]
          · by_cases hinvalid : e ∈ invalid
            · simp [Reports, hattempt, hretried, hinvalid]
            · simp [Reports, hattempt, hretried, hinvalid]
  | succ left ih =>
      unfold retryLoop
      cases hattempt : attempt unavailable read (replies k) with
      | ok value =>
          refine iff_of_true (by simp) ⟨0, Nat.zero_le _, ?_, by simp⟩
          simp [Reports, hattempt]
      | error e =>
          by_cases hretried : retried unavailable e
          · by_cases hinterrupted : interrupted k
            · -- cancelled while asleep
              refine iff_of_false (by simp [hretried, hinterrupted]) ?_
              rintro ⟨n, -, hreports, hbefore⟩
              cases n with
              | zero => simp [Reports, hattempt, hretried] at hreports
              | succ n =>
                  obtain ⟨hawake, -⟩ := hbefore 0 (Nat.succ_pos n)
                  simp [hinterrupted] at hawake
            · rw [Bool.not_eq_true] at hinterrupted
              simp only [hretried, if_true, hinterrupted, Bool.false_eq_true, if_false]
              rw [ih]
              constructor
              · rintro ⟨n, hn, hreports, hbefore⟩
                refine ⟨n + 1, by omega, ?_, ?_⟩
                · have hleft : left + 1 - (n + 1) = left - n := by omega
                  have hindex : k + (n + 1) = k + 1 + n := by omega
                  rw [hleft, hindex]
                  exact hreports
                · intro j hj
                  cases j with
                  | zero => exact ⟨hinterrupted, e, hattempt, hretried⟩
                  | succ j =>
                      have hindex : k + (j + 1) = k + 1 + j := by omega
                      rw [hindex]
                      exact hbefore j (by omega)
              · rintro ⟨n, hn, hreports, hbefore⟩
                cases n with
                | zero => simp [Reports, hattempt, hretried] at hreports
                | succ n =>
                    refine ⟨n, by omega, ?_, ?_⟩
                    · have hleft : left + 1 - (n + 1) = left - n := by omega
                      have hindex : k + (n + 1) = k + 1 + n := by omega
                      rw [hleft, hindex] at hreports
                      exact hreports
                    · intro j hj
                      have hindex : k + (j + 1) = k + 1 + j := by omega
                      have hnext := hbefore (j + 1) (by omega)
                      rw [hindex] at hnext
                      exact hnext
          · have hself : Reports unavailable invalid (left + 1) (.error e : Except _ α) ↔
                e ∈ invalid := by
              simp [Reports, hretried]
            have hsettles : Settles unavailable invalid read replies interrupted (left + 1) k ↔
                e ∈ invalid := by
              constructor
              · rintro ⟨n, -, hreports, hbefore⟩
                cases n with
                | zero =>
                    have hreports' : Reports unavailable invalid (left + 1)
                        (attempt unavailable read (replies k)) := hreports
                    rw [hattempt] at hreports'
                    exact hself.mp hreports'
                | succ n =>
                    obtain ⟨-, e', hattempt', hretried'⟩ := hbefore 0 (Nat.succ_pos n)
                    have hsame := hattempt.symm.trans hattempt'
                    cases hsame
                    exact absurd hretried' hretried
              · intro hinvalid
                refine ⟨0, Nat.zero_le _, ?_, by simp⟩
                show Reports unavailable invalid (left + 1)
                  (attempt unavailable read (replies k))
                rw [hattempt]
                exact hself.mpr hinvalid
            rw [hsettles]
            by_cases hinvalid : e ∈ invalid
            · simp [hretried, hinvalid]
            · simp [hretried, hinvalid]

end retries

end EnergyAgent.Providers
