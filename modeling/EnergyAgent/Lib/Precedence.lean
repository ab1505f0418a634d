import EnergyAgent.Lib.Process

/-!
# What a request must have heard before

`Proc.Awaits` says of a program that it makes no call of a certain kind, and returns nothing of a certain
kind, before some call has been answered in a certain way. The judgement is about one program and its
answers alone. `Pool.precededBy_of_reachable` turns it into a fact about every interleaving: in the
history, such a call has an answer of that kind before it, and it is one of the same request.

`Proc.Ends` says how a program ends after the calls that it has made. `Pool.ends_of_reachable` is the same
about a request among others: its calls are those that the history has of it.
-/

namespace EnergyAgent.Lib

variable {B : Backend} {κ ε α β : Type}

/-! ## Programs -/

/-- Until an answer comes of which `cause` holds, the program makes no call that is `guarded`, and returns
only what is `free`. -/
def Proc.Awaits (cause : (op : B.Op) → B.Ans op → Prop) (guarded : B.Op → Prop) (free : α → Prop) :
    Proc B ε α → Prop
  | .ret a => free a
  | .raise _ => True
  | .call op k => ¬ guarded op ∧ ∀ a, B.Answers op a → cause op a ∨ (k a).Awaits cause guarded free

section awaits

variable {cause : (op : B.Op) → B.Ans op → Prop} {guarded : B.Op → Prop}

theorem Proc.Awaits.bind {Q : α → Prop} {free : β → Prop} {x : Proc B ε α} {f : α → Proc B ε β}
    (hx : x.Awaits cause guarded Q) (hf : ∀ a, Q a → (f a).Awaits cause guarded free) :
    (x >>= f).Awaits cause guarded free := by
  induction x with
  | ret a => exact hf a hx
  | raise e => exact trivial
  | call op k ih =>
      refine ⟨hx.1, fun a ha => ?_⟩
      rcases hx.2 a ha with hcause | hrest
      · exact Or.inl hcause
      · exact Or.inr (ih a hrest)

theorem Proc.Awaits.mono {free free' : α → Prop} {x : Proc B ε α} (hx : x.Awaits cause guarded free)
    (himp : ∀ a, free a → free' a) : x.Awaits cause guarded free' := by
  induction x with
  | ret a => exact himp a hx
  | raise e => exact trivial
  | call op k ih =>
      refine ⟨hx.1, fun a ha => ?_⟩
      rcases hx.2 a ha with hcause | hrest
      · exact Or.inl hcause
      · exact Or.inr (ih a hrest)

/-- Fewer guarded calls. -/
theorem Proc.Awaits.weaken {guarded' : B.Op → Prop} {free : α → Prop} {x : Proc B ε α}
    (hx : x.Awaits cause guarded free) (himp : ∀ op, guarded' op → guarded op) :
    x.Awaits cause guarded' free := by
  induction x with
  | ret a => exact hx
  | raise e => exact trivial
  | call op k ih =>
      refine ⟨fun hop => hx.1 (himp op hop), fun a ha => ?_⟩
      rcases hx.2 a ha with hcause | hrest
      · exact Or.inl hcause
      · exact Or.inr (ih a hrest)

/-- A program none of whose calls is guarded needs no answer for them. -/
theorem Proc.Uses.awaits {free : α → Prop} {x : Proc B ε α} (hx : x.Uses fun op => ¬ guarded op)
    (hret : x.Returns free) : x.Awaits cause guarded free := by
  induction x with
  | ret a => exact hret
  | raise e => exact trivial
  | call op k ih => exact ⟨hx.1, fun a ha => Or.inr (ih a (hx.2 a ha) (hret a ha))⟩

/-- A check, and what follows it when it passes. -/
theorem Proc.awaits_raiseIf_bind {free : α → Prop} {c : Prop} [Decidable c] {e : ε}
    {f : Unit → Proc B ε α} (h : ¬ c → (f ()).Awaits cause guarded free) :
    (Proc.raiseIf c e >>= f).Awaits cause guarded free := by
  unfold Proc.raiseIf
  split
  · exact trivial
  · next hc => exact h hc

/-- A call, and what follows each of its answers that is not the one awaited. -/
theorem Proc.awaits_call {free : α → Prop} {op : B.Op} {k : B.Ans op → Proc B ε α}
    (hop : ¬ guarded op)
    (hk : ∀ a, B.Answers op a → ¬ cause op a → (k a).Awaits cause guarded free) :
    (Proc.call op k).Awaits cause guarded free := by
  refine ⟨hop, fun a ha => ?_⟩
  by_cases hcause : cause op a
  · exact Or.inl hcause
  · exact Or.inr (hk a ha hcause)

end awaits

theorem Proc.Uses.and {allowed allowed' : B.Op → Prop} {x : Proc B ε α} (h : x.Uses allowed)
    (h' : x.Uses allowed') : x.Uses fun op => allowed op ∧ allowed' op := by
  induction x with
  | ret | raise => exact trivial
  | call op k ih => exact ⟨⟨h.1, h'.1⟩, fun a ha => ih a (h.2 a ha) (h'.2 a ha)⟩

/-! ## Interleavings -/

/-- An event of the history has been answered so that `cause` holds. -/
def Event.Caused (cause : (op : B.Op) → B.Ans op → Prop) (e : Event B κ) : Prop := cause e.op e.ans

/-- Every guarded call of a request has a cause before it, and so has what a request has returned. -/
structure Pool.PrecededBy (cause : κ → (op : B.Op) → B.Ans op → Prop) (guarded : κ → B.Op → Prop)
    (free : κ → α → Prop) (p : Pool B κ ε α) : Prop where
  call : ∀ past e rest, p.config.history = past ++ e :: rest → guarded e.request e.op →
    ∃ e' ∈ past, e'.task = e.task ∧ e'.request = e.request ∧ e'.Caused (cause e.request)
  result : ∀ i r a, p.tasks[i]? = some ⟨r, .ret a⟩ → free r a ∨
    ∃ e ∈ p.config.history, e.task = i ∧ e.request = r ∧ e.Caused (cause r)

section precededBy

variable {cause : κ → (op : B.Op) → B.Ans op → Prop} {guarded : κ → B.Op → Prop} {free : κ → α → Prop}

/-- Request `i` has heard its answer. -/
def Pool.Heard (cause : κ → (op : B.Op) → B.Ans op → Prop) (i : Nat) (r : κ)
    (history : List (Event B κ)) : Prop :=
  ∃ e ∈ history, e.task = i ∧ e.request = r ∧ e.Caused (cause r)

/-- The invariant: every request has heard its answer, or waits for it still. -/
structure Pool.Awaiting (cause : κ → (op : B.Op) → B.Ans op → Prop) (guarded : κ → B.Op → Prop)
    (free : κ → α → Prop) (p : Pool B κ ε α) : Prop where
  task : ∀ i r rest, p.tasks[i]? = some ⟨r, rest⟩ →
    Heard cause i r p.config.history ∨ rest.Awaits (cause r) (guarded r) (free r)
  call : ∀ past e rest, p.config.history = past ++ e :: rest → guarded e.request e.op →
    Heard cause e.task e.request past

theorem Pool.Heard.append {i : Nat} {r : κ} {history new : List (Event B κ)}
    (h : Heard cause i r history) : Heard cause i r (history ++ new) := by
  obtain ⟨e, he, hrest⟩ := h
  exact ⟨e, List.mem_append_left _ he, hrest⟩

/-- A place in the history after one more event is a place before it, or the new one. -/
theorem append_singleton_eq {γ : Type} {l past rest : List γ} {x y : γ}
    (h : l ++ [x] = past ++ y :: rest) : (past = l ∧ y = x) ∨ ∃ rest', l = past ++ y :: rest' := by
  rcases List.eq_nil_or_concat rest with rfl | ⟨rest', z, rfl⟩
  · obtain ⟨rfl, hlast⟩ := List.append_inj' h rfl
    exact Or.inl ⟨rfl, (List.cons.inj hlast).1.symm⟩
  · refine Or.inr ⟨rest', ?_⟩
    rw [List.concat_eq_append, ← List.cons_append, ← List.append_assoc] at h
    exact (List.append_inj' h rfl).1

/-- **The step lemma.** -/
theorem Pool.Awaiting.step {init : B.Store → Prop} {body : κ → Proc B ε α}
    (hbody : ∀ r, (body r).Awaits (cause r) (guarded r) (free r)) {p q : Pool B κ ε α}
    {m : Move B κ} (h : Awaiting cause guarded free p) (hstep : (Pool.system init body).step p m = some q) :
    Awaiting cause guarded free q := by
  rcases Pool.step_cases hstep with ⟨r, rfl, rfl⟩ | ⟨i, x, r, op, k, a, c, rfl, htask, hexec, rfl⟩
  · refine ⟨fun j r' rest hj => ?_, h.call⟩
    rcases Pool.task_start hj with hold | ⟨-, hnew⟩
    · exact h.task j r' rest hold
    · cases hnew
      exact Or.inr (hbody r)
  · obtain ⟨hans, hhistory⟩ := Config.exec_eq_some hexec
    have hanswers : B.Answers op a := ⟨x, _, _, hans⟩
    constructor
    · intro j r' rest hj
      rw [hhistory]
      rcases Pool.task_step hj with ⟨rfl, hnew⟩ | ⟨-, hold⟩
      · cases hnew
        rcases h.task _ _ _ htask with hheard | hawaits
        · exact Or.inl hheard.append
        · rcases hawaits.2 a hanswers with hcause | hrest
          · refine Or.inl ⟨⟨j, r, op, a⟩, ?_, rfl, rfl, hcause⟩
            exact List.mem_append_right _ (List.mem_singleton_self _)
          · exact Or.inr hrest
      · exact (h.task j r' rest hold).imp_left Pool.Heard.append
    · intro past e rest hsplit hguarded
      rw [hhistory] at hsplit
      rcases append_singleton_eq hsplit with ⟨rfl, rfl⟩ | ⟨rest', hbefore⟩
      · rcases h.task _ _ _ htask with hheard | hawaits
        · exact hheard
        · exact absurd hguarded hawaits.1
      · exact h.call past e rest' hbefore hguarded

/-- **Every interleaving keeps the order** that each program keeps for itself. -/
theorem Pool.precededBy_of_reachable {init : B.Store → Prop} {body : κ → Proc B ε α}
    (hbody : ∀ r, (body r).Awaits (cause r) (guarded r) (free r)) {p : Pool B κ ε α}
    (h : (Pool.system init body).Reachable p) : PrecededBy cause guarded free p := by
  have hinv : Awaiting cause guarded free p := by
    refine h.invariant (fun p hinit => ?_) fun _ _ _ hp _ hstep => hp.step hbody hstep
    obtain ⟨-, hhistory, htasks⟩ := hinit
    constructor
    · intro i r rest hi
      rw [htasks] at hi
      cases hi
    · intro past e rest hsplit
      rw [hhistory] at hsplit
      exact absurd hsplit.symm (by simp)
  refine ⟨hinv.call, fun i r a hi => ?_⟩
  rcases hinv.task i r _ hi with hheard | hfree
  · exact Or.inr hheard
  · exact Or.inl hfree

end precededBy

/-! ## Whole requests -/

/-- A call with its answer. -/
abbrev Exchange (B : Backend) := (op : B.Op) × B.Ans op

def Event.exchange (e : Event B κ) : Exchange B := ⟨e.op, e.ans⟩

/-- Whatever the answers, the program ends as `post` says of all its calls, of which `past` are over. -/
def Proc.Ends (post : List (Exchange B) → Except ε α → Prop) : Proc B ε α → List (Exchange B) → Prop
  | .ret a, past => post past (.ok a)
  | .raise e, past => post past (.error e)
  | .call op k, past => ∀ a, B.Answers op a → (k a).Ends post (past ++ [⟨op, a⟩])

section ends

variable {post : List (Exchange B) → Except ε β → Prop} {past : List (Exchange B)}

theorem Proc.Ends.bind {mid : List (Exchange B) → Except ε α → Prop} {x : Proc B ε α}
    {f : α → Proc B ε β} (hx : x.Ends mid past)
    (hok : ∀ past a, mid past (.ok a) → (f a).Ends post past)
    (herror : ∀ past e, mid past (.error e) → post past (.error e)) : (x >>= f).Ends post past := by
  induction x generalizing past with
  | ret a => exact hok past a hx
  | raise e => exact herror past e hx
  | call op k ih => exact fun a ha => ih a (hx a ha)

theorem Proc.Ends.mono {post' : List (Exchange B) → Except ε β → Prop} {x : Proc B ε β}
    (hx : x.Ends post past) (himp : ∀ past r, post past r → post' past r) : x.Ends post' past := by
  induction x generalizing past with
  | ret a => exact himp past _ hx
  | raise e => exact himp past _ hx
  | call op k ih => exact fun a ha => ih a (hx a ha)

/-- A check, and what follows it when it passes. -/
theorem Proc.ends_raiseIf_bind {c : Prop} [Decidable c] {e : ε} {f : Unit → Proc B ε β}
    (hraise : c → post past (.error e)) (h : ¬ c → (f ()).Ends post past) :
    (Proc.raiseIf c e >>= f).Ends post past := by
  unfold Proc.raiseIf
  split
  · next hc => exact hraise hc
  · next hc => exact h hc

theorem Proc.ends_true (x : Proc B ε β) : x.Ends (fun _ _ => True) past := by
  induction x generalizing past with
  | ret | raise => exact trivial
  | call op k ih => exact fun a _ => ih a

end ends

/-- The calls of request `i` with their answers. -/
def Config.heard (c : Config B κ) (i : Nat) : List (Exchange B) := (own i c.history).map Event.exchange

namespace Pool

variable {init : B.Store → Prop} {body : κ → Proc B ε α} {p : Pool B κ ε α}

/-- The invariant: each event is one of a request of the pool, and each request ends as `post` says. -/
structure Ending (post : κ → List (Exchange B) → Except ε α → Prop) (p : Pool B κ ε α) : Prop where
  made : ∀ e ∈ p.config.history, ∃ rest, p.tasks[e.task]? = some ⟨e.request, rest⟩
  ends : ∀ (i : Nat) r rest, p.tasks[i]? = some ⟨r, rest⟩ → rest.Ends (post r) (p.config.heard i)

/-- **The step lemma.** -/
theorem Ending.step {post : κ → List (Exchange B) → Except ε α → Prop} {q : Pool B κ ε α} {m : Move B κ}
    (hbody : ∀ r, (body r).Ends (post r) []) (h : Ending post p)
    (hstep : (system init body).step p m = some q) : Ending post q := by
  rcases step_cases hstep with ⟨r, rfl, rfl⟩ | ⟨i, x, r, op, k, a, c, rfl, htask, hexec, rfl⟩
  · constructor
    · intro e he
      obtain ⟨rest, hrest⟩ := h.made e he
      exact ⟨rest, by rw [List.getElem?_append_left (List.getElem?_eq_some_iff.mp hrest).1, hrest]⟩
    · intro j r' rest hj
      rcases task_start hj with hold | ⟨rfl, hnew⟩
      · exact h.ends j r' rest hold
      · cases hnew
        -- a new request has not made a call yet
        have hnone : p.config.heard p.tasks.length = [] := by
          rw [Config.heard, List.map_eq_nil_iff, own, List.filter_eq_nil_iff]
          intro e he
          obtain ⟨rest, hrest⟩ := h.made e he
          have hlt := (List.getElem?_eq_some_iff.mp hrest).1
          simpa using Nat.ne_of_lt hlt
        show (body r).Ends (post r) (p.config.heard p.tasks.length)
        rw [hnone]
        exact hbody r
  · obtain ⟨hans, hhistory⟩ := Config.exec_eq_some hexec
    have hlt := (List.getElem?_eq_some_iff.mp htask).1
    constructor
    · intro e he
      rw [hhistory] at he
      rcases List.mem_append.mp he with hold | hnew
      · obtain ⟨rest, hrest⟩ := h.made e hold
        by_cases hi : e.task = i
        · rw [hi, htask] at hrest
          obtain ⟨hrequest, -⟩ := Task.mk.inj (Option.some.inj hrest)
          exact ⟨k a, by rw [hi, ← hrequest, List.getElem?_set_self hlt]⟩
        · exact ⟨rest, by rw [List.getElem?_set_ne (Ne.symm hi), hrest]⟩
      · rw [List.mem_singleton.mp hnew]
        exact ⟨k a, List.getElem?_set_self hlt⟩
    · intro j r' rest hj
      show rest.Ends (post r') (c.heard j)
      rcases task_step hj with ⟨rfl, hnew⟩ | ⟨hne, hold⟩
      · cases hnew
        have hheard : c.heard j = p.config.heard j ++ [⟨op, a⟩] := by
          rw [Config.heard, Config.exec_own hexec, List.map_append]
          rfl
        rw [hheard]
        exact h.ends _ _ _ htask a ⟨x, _, _, hans⟩
      · have hheard : c.heard j = p.config.heard j := by
          rw [Config.heard, (Config.exec_others hexec hne).own_eq]
          rfl
        rw [hheard]
        exact h.ends j r' rest hold

/-- **How requests end** among others. -/
theorem ends_of_reachable {post : κ → List (Exchange B) → Except ε α → Prop}
    (hbody : ∀ r, (body r).Ends (post r) []) (h : (system init body).Reachable p) : Ending post p := by
  refine h.invariant (fun p hinit => ?_) fun _ _ _ hp _ hstep => hp.step hbody hstep
  obtain ⟨-, hhistory, htasks⟩ := hinit
  constructor
  · intro e he
    rw [hhistory] at he
    cases he
  · intro i r rest hi
    rw [htasks] at hi
    cases hi

/-- **The invariant rule for what is stored**: every call that a request may make keeps it. -/
theorem keeps_of_reachable {allowed : κ → B.Op → Prop} {I : Config B κ → Prop}
    (hbody : ∀ r, (body r).Uses (allowed r)) (hinit : ∀ s, init s → I ⟨s, []⟩)
    (hcall : ∀ c d i r op x a, allowed r op → I c → c.exec i r op x = some (a, d) → I d)
    (h : (system init body).Reachable p) : I p.config := by
  induction h with
  | init hstart =>
      obtain ⟨hstore, hhistory, -⟩ := hstart
      have := hinit _ hstore
      rwa [← hhistory] at this
  | step hp _ hstep ih =>
      rcases step_cases hstep with ⟨r, -, rfl⟩ | ⟨i, x, r, op, k, a, c, -, htask, hexec, rfl⟩
      · exact ih
      · have hallowed := (uses_of_reachable hbody hp i _ htask).1
        exact hcall _ _ i r op x a hallowed ih hexec

/-- Every call in the history is one that its request may make. -/
theorem used_of_reachable {allowed : κ → B.Op → Prop} (hbody : ∀ r, (body r).Uses (allowed r))
    (h : (system init body).Reachable p) : ∀ e ∈ p.config.history, allowed e.request e.op := by
  refine keeps_of_reachable (I := fun c => ∀ e ∈ c.history, allowed e.request e.op) hbody ?_ ?_ h
  · intro s _ e he
    cases he
  · intro c d i r op x a hop hc hexec e he
    rw [(Config.exec_eq_some hexec).2] at he
    rcases List.mem_append.mp he with hold | hnew
    · exact hc e hold
    · rw [List.mem_singleton.mp hnew]
      exact hop

end Pool

end EnergyAgent.Lib
