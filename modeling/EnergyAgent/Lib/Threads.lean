import EnergyAgent.Lib.Effect
import EnergyAgent.Lib.Transition

/-!
# Programs that are interrupted

A `Prog` runs to its end before anything else happens. A `Thread` is such a program cut at the points
where others may run: each of its steps is one atomic access to the store, and carries a mark that
says which access it is. `Thread.run` puts the steps together again.

`Threads.system` has any number of threads over one store. `Thread.Safe` is the rely/guarantee
judgement for one of them: as long as the accesses of the others keep to the contract, so do its own.
`Threads.allSafe_of_reachable` is the rule for all of them.
-/

namespace EnergyAgent.Lib

/-- A program over a store `σ` in steps with marks in `μ`. In store `s` a step leaves `write s`
behind, and the program goes on as `next s`. -/
inductive Thread (μ σ ε α : Type)
  | ret (a : α)
  | raise (e : ε)
  | step (mark : μ) (write : σ → σ) (next : σ → Thread μ σ ε α)

namespace Thread

variable {μ σ ε α β : Type}

/-- Run `x`, then `f` on what it returned. -/
def bind : Thread μ σ ε α → (α → Thread μ σ ε β) → Thread μ σ ε β
  | .ret a, f => f a
  | .raise e, _ => .raise e
  | .step mark write next, f => .step mark write fun s => (next s).bind f

instance : Monad (Thread μ σ ε) where
  pure := .ret
  bind := Thread.bind

/-- Run `x`; run `h` on the exception it raises. -/
def handle {δ : Type} : Thread μ σ ε α → (ε → Thread μ σ δ α) → Thread μ σ δ α
  | .ret a, _ => .ret a
  | .raise e, h => h e
  | .step mark write next, h => .step mark write fun s => (next s).handle h

/-- Return the value or raise the error that an outcome carries. -/
def lift : Except ε α → Thread μ σ ε α
  | .ok a => .ret a
  | .error e => .raise e

/-- Raise `e` when `c` holds. -/
def raiseIf (c : Prop) [Decidable c] (e : ε) : Thread μ σ ε Unit := if c then .raise e else .ret ()

/-- A program in one step. -/
def atomic (mark : μ) (x : Prog σ ε α) : Thread μ σ ε α :=
  .step mark (fun s => (x s).2) fun s => lift (x s).1

/-- The access that comes next. -/
def head : Thread μ σ ε α → Option μ
  | .step mark _ _ => some mark
  | _ => none

/-! ### Nobody interrupts -/

/-- All steps, one after the other. -/
def run : Thread μ σ ε α → Prog σ ε α
  | .ret a, s => (.ok a, s)
  | .raise e, s => (.error e, s)
  | .step _ write next, s => (next s).run (write s)

@[simp] theorem run_pure (a : α) : (pure a : Thread μ σ ε α).run = pure a := rfl

@[simp] theorem run_ret (a : α) : (ret a : Thread μ σ ε α).run = pure a := rfl

@[simp] theorem run_raise (e : ε) : (raise e : Thread μ σ ε α).run = Prog.raise e := rfl

@[simp] theorem run_lift (r : Except ε α) : (lift r : Thread μ σ ε α).run = Prog.lift r := by
  cases r <;> rfl

@[simp] theorem run_raiseIf (c : Prop) [Decidable c] (e : ε) :
    (raiseIf c e : Thread μ σ ε Unit).run = Prog.raiseIf c e := by
  funext s
  unfold raiseIf Prog.raiseIf
  split <;> rfl

@[simp] theorem run_atomic (mark : μ) (x : Prog σ ε α) : (atomic mark x).run = x := by
  funext s
  show (lift (x s).1 : Thread μ σ ε α).run (x s).2 = x s
  rw [run_lift]
  rfl

@[simp] theorem run_bind (x : Thread μ σ ε α) (f : α → Thread μ σ ε β) :
    (x >>= f).run = x.run >>= fun a => (f a).run := by
  induction x with
  | ret a => rfl
  | raise e => rfl
  | step mark write next ih =>
      funext s
      show (next s >>= f).run (write s) = _
      rw [ih s]
      rfl

@[simp] theorem run_handle (x : Thread μ σ ε α) (h : ε → Thread μ σ ε α) :
    (x.handle h).run = Prog.handle x.run fun e => (h e).run := by
  induction x with
  | ret a => rfl
  | raise e => rfl
  | step mark write next ih =>
      funext s
      show ((next s).handle h).run (write s) = _
      rw [ih s]
      rfl

end Thread

/-! ## Many threads -/

/-- A store with the threads that are running on it. -/
structure Threads (μ σ ε α : Type) where
  store : σ
  threads : List (Thread μ σ ε α)

namespace Threads

/-- A request begins, or a thread takes its next step. A thread that takes no step any more has
died. -/
inductive Move (κ : Type)
  | start (r : κ)
  | step (i : Nat)
  deriving DecidableEq, Repr

variable {μ σ ε α κ : Type}

/-- The next step of thread `i`. -/
def advance (p : Threads μ σ ε α) (i : Nat) : Option (Threads μ σ ε α) :=
  match p.threads[i]? with
  | some (.step _ write next) => some ⟨write p.store, p.threads.set i (next p.store)⟩
  | _ => none

/-- The interleavings of requests, for which `body` gives the threads. -/
def system (init : σ → Prop) (body : κ → Thread μ σ ε α) :
    TransitionSystem (Threads μ σ ε α) (Move κ) where
  init p := init p.store ∧ p.threads = []
  step p
    | .start r => some { p with threads := p.threads ++ [body r] }
    | .step i => p.advance i

/-- **What one move does.** -/
theorem step_cases {init : σ → Prop} {body : κ → Thread μ σ ε α} {p q : Threads μ σ ε α}
    {m : Move κ} (h : (system init body).step p m = some q) :
    (∃ r, m = .start r ∧ q = { p with threads := p.threads ++ [body r] }) ∨
    ∃ i mark write next, m = .step i ∧ p.threads[i]? = some (.step mark write next) ∧
      q = ⟨write p.store, p.threads.set i (next p.store)⟩ := by
  cases m with
  | start r =>
      simp only [system, Option.some.injEq] at h
      exact Or.inl ⟨r, rfl, h.symm⟩
  | step i =>
      simp only [system, advance] at h
      split at h
      · next mark write next hthread =>
          cases h
          exact Or.inr ⟨i, mark, write, next, rfl, hthread, rfl⟩
      · cases h

/-- The access that a move makes. -/
def access (p : Threads μ σ ε α) : Move κ → Option μ
  | .start _ => none
  | .step i => p.threads[i]?.bind Thread.head

end Threads

/-! ## Contracts -/

/-- What the threads promise each other: an invariant of the store, and what an access with a mark may
do to it. -/
structure Contract (μ σ : Type) where
  keeps : σ → Prop
  guar : μ → σ → σ → Prop

namespace Contract

variable {μ σ : Type} (C : Contract μ σ)

/-- One access of another thread. -/
def Access (s t : σ) : Prop := C.keeps s ∧ (∃ mark, C.guar mark s t) ∧ C.keeps t

/-- The accesses of other threads, any number of them. -/
abbrev rely : σ → σ → Prop := Relation.ReflTransGen C.Access

/-- No access takes `P` away. -/
def Stable (P : σ → Prop) : Prop := ∀ s t, C.Access s t → P s → P t

variable {C}

theorem rely_keeps {s t : σ} (h : C.rely s t) (hs : C.keeps s) : C.keeps t := by
  cases h with
  | refl => exact hs
  | tail _ haccess => exact haccess.2.2

theorem Stable.rely {P : σ → Prop} (hP : C.Stable P) {s t : σ} (h : C.rely s t) (hs : P s) : P t := by
  induction h with
  | refl => exact hs
  | tail _ haccess ih => exact hP _ _ haccess ih

theorem Stable.true : C.Stable fun _ => True := fun _ _ _ _ => trivial

theorem Stable.and {P Q : σ → Prop} (hP : C.Stable P) (hQ : C.Stable Q) :
    C.Stable fun s => P s ∧ Q s :=
  fun s t haccess h => ⟨hP s t haccess h.1, hQ s t haccess h.2⟩

end Contract

section safe

variable {μ σ ε α β : Type} (C : Contract μ σ)

/-- **The judgement for one thread** in store `s`: each of its steps keeps the contract, wherever the
others have taken the store meanwhile, and what it returns is as `post` says. -/
def Thread.Safe (post : α → σ → Prop) : Thread μ σ ε α → σ → Prop
  | .ret a, s => ∀ t, C.rely s t → post a t
  | .raise _, _ => True
  | .step mark write next, s => ∀ t, C.rely s t →
      C.keeps (write t) ∧ C.guar mark t (write t) ∧ (next t).Safe post (write t)

variable {C} {post : α → σ → Prop} {s : σ}

namespace Thread

theorem Safe.rely {x : Thread μ σ ε α} {t : σ} (h : x.Safe C post s) (hst : C.rely s t) :
    x.Safe C post t := by
  cases x with
  | ret a => exact fun u htu => h u (hst.trans htu)
  | raise e => exact trivial
  | step mark write next => exact fun u htu => h u (hst.trans htu)

/-- What holds at the beginning, and no access takes away, holds at the end. -/
theorem Safe.frame {P : σ → Prop} (hP : C.Stable P) {x : Thread μ σ ε α} (h : x.Safe C post s)
    (hkeeps : C.keeps s) (hs : P s) : x.Safe C (fun a t => post a t ∧ P t) s := by
  induction x generalizing s with
  | ret a => exact fun t hst => ⟨h t hst, hP.rely hst hs⟩
  | raise e => exact trivial
  | step mark write next ih =>
      intro t hst
      obtain ⟨hwrite, hguar, hnext⟩ := h t hst
      have ht := Contract.rely_keeps hst hkeeps
      exact ⟨hwrite, hguar, ih t hnext hwrite (hP _ _ ⟨ht, ⟨mark, hguar⟩, hwrite⟩ (hP.rely hst hs))⟩

theorem Safe.mono {post' : α → σ → Prop} {x : Thread μ σ ε α} (h : x.Safe C post s)
    (hpost : ∀ a t, post a t → post' a t) : x.Safe C post' s := by
  induction x generalizing s with
  | ret a => exact fun t hst => hpost a t (h t hst)
  | raise e => exact trivial
  | step mark write next ih =>
      intro t hst
      obtain ⟨hwrite, hguar, hnext⟩ := h t hst
      exact ⟨hwrite, hguar, ih t hnext⟩

theorem Safe.bind {post' : β → σ → Prop} {x : Thread μ σ ε α} {f : α → Thread μ σ ε β}
    (h : x.Safe C post s) (hkeeps : C.keeps s)
    (hf : ∀ a t, C.keeps t → post a t → (f a).Safe C post' t) : (x >>= f).Safe C post' s := by
  induction x generalizing s with
  | ret a => exact hf a s hkeeps (h s .refl)
  | raise e => exact trivial
  | step mark write next ih =>
      intro t hst
      obtain ⟨hwrite, hguar, hnext⟩ := h t hst
      exact ⟨hwrite, hguar, ih t hnext hwrite⟩

/-- The same with a frame: what `x` returns does not matter, what holds at its beginning does. -/
theorem Safe.seq {P : σ → Prop} (hP : C.Stable P) {post' : β → σ → Prop} {x : Thread μ σ ε α}
    {f : α → Thread μ σ ε β} (h : x.Safe C (fun _ _ => True) s) (hkeeps : C.keeps s) (hs : P s)
    (hf : ∀ a t, C.keeps t → P t → (f a).Safe C post' t) : (x >>= f).Safe C post' s :=
  (h.frame hP hkeeps hs).bind hkeeps fun a t ht hat => hf a t ht hat.2

/-- The handler starts with whatever was there at the beginning and no access takes away. -/
theorem Safe.handle {δ : Type} {P : σ → Prop} (hP : C.Stable P) {x : Thread μ σ ε α}
    {handler : ε → Thread μ σ δ α} (h : x.Safe C post s) (hkeeps : C.keeps s) (hs : P s)
    (hhandler : ∀ e t, C.keeps t → P t → (handler e).Safe C post t) :
    (x.handle handler).Safe C post s := by
  induction x generalizing s with
  | ret a => exact h
  | raise e => exact hhandler e s hkeeps hs
  | step mark write next ih =>
      intro t hst
      obtain ⟨hwrite, hguar, hnext⟩ := h t hst
      have ht := Contract.rely_keeps hst hkeeps
      exact ⟨hwrite, hguar, ih t hnext hwrite (hP _ _ ⟨ht, ⟨mark, hguar⟩, hwrite⟩ (hP.rely hst hs))⟩

theorem Safe.ret {a : α} (h : ∀ t, C.rely s t → post a t) :
    (Thread.ret a : Thread μ σ ε α).Safe C post s := h

theorem Safe.pure {a : α} (h : ∀ t, C.rely s t → post a t) :
    (Pure.pure a : Thread μ σ ε α).Safe C post s := h

theorem Safe.raise {e : ε} : (Thread.raise e : Thread μ σ ε α).Safe C post s := trivial

theorem Safe.lift {r : Except ε α} (h : ∀ a, r = .ok a → ∀ t, C.rely s t → post a t) :
    (Thread.lift r : Thread μ σ ε α).Safe C post s := by
  cases r with
  | ok a => exact h a rfl
  | error e => exact trivial

theorem Safe.raiseIf {c : Prop} [Decidable c] {e : ε} :
    (Thread.raiseIf c e : Thread μ σ ε Unit).Safe C (fun _ _ => ¬ c) s := by
  unfold Thread.raiseIf
  split
  · exact trivial
  · next hc => exact fun _ _ => hc

/-- **One access.** It starts where the others have left the store. -/
theorem Safe.atomic {P : σ → Prop} (hP : C.Stable P) {mark : μ} {x : Prog σ ε α}
    (hpost : ∀ a, C.Stable (post a)) (hkeeps : C.keeps s) (hs : P s)
    (h : ∀ t, C.keeps t → P t →
      C.keeps (x t).2 ∧ C.guar mark t (x t).2 ∧ ∀ a, (x t).1 = .ok a → post a (x t).2) :
    (Thread.atomic mark x).Safe C post s := by
  intro t hst
  obtain ⟨hwrite, hguar, hok⟩ := h t (Contract.rely_keeps hst hkeeps) (hP.rely hst hs)
  refine ⟨hwrite, hguar, Safe.lift fun a ha u htu => ?_⟩
  exact (hpost a).rely htu (hok a ha)

/-- What else one access has established when it returns. -/
theorem Safe.also {post' : α → σ → Prop} (hpost' : ∀ a, C.Stable (post' a)) {mark : μ} {x : Prog σ ε α}
    (h : (Thread.atomic mark x).Safe C post s) (hok : ∀ t a, (x t).1 = .ok a → post' a (x t).2) :
    (Thread.atomic mark x).Safe C (fun a t => post a t ∧ post' a t) s := by
  intro t hst
  obtain ⟨hwrite, hguar, hnext⟩ := h t hst
  refine ⟨hwrite, hguar, Safe.lift fun a ha u htu => ⟨?_, (hpost' a).rely htu (hok t a ha)⟩⟩
  have hend : (Thread.lift (x t).1 : Thread μ σ ε α).Safe C post (x t).2 := hnext
  rw [ha] at hend
  exact hend u htu

/-- A thread that nobody interrupts is one visit of the others. -/
theorem Safe.rely_run {x : Thread μ σ ε α} (h : x.Safe C post s) (hkeeps : C.keeps s) :
    C.rely s (x.run s).2 := by
  induction x generalizing s with
  | ret a => exact .refl
  | raise e => exact .refl
  | step mark write next ih =>
      obtain ⟨hwrite, hguar, hnext⟩ := h s .refl
      exact (Relation.ReflTransGen.single ⟨hkeeps, ⟨mark, hguar⟩, hwrite⟩).trans (ih s hnext hwrite)

end Thread

end safe

/-! ## The rule -/

namespace Threads

variable {μ σ ε α κ : Type} {C : Contract μ σ} {init : σ → Prop} {body : κ → Thread μ σ ε α}

/-- The store keeps the invariant, and every thread is safe. -/
structure AllSafe (C : Contract μ σ) (p : Threads μ σ ε α) : Prop where
  keeps : C.keeps p.store
  safe : ∀ t ∈ p.threads, t.Safe C (fun _ _ => True) p.store

/-- **The step lemma.** A move from a state where every thread is safe leads to such a state; the access
that it makes, if it makes one, keeps its promise. -/
theorem AllSafe.step {p q : Threads μ σ ε α} (h : AllSafe C p)
    (hbody : ∀ r s, C.keeps s → (body r).Safe C (fun _ _ => True) s) {m : Move κ}
    (hstep : (system init body).step p m = some q) :
    AllSafe C q ∧ (q.store = p.store ∨ ∃ mark, p.access m = some mark ∧ C.guar mark p.store q.store) := by
  rcases step_cases hstep with ⟨r, rfl, rfl⟩ | ⟨i, mark, write, next, rfl, hthread, rfl⟩
  · refine ⟨⟨h.keeps, fun t ht => ?_⟩, Or.inl rfl⟩
    rcases List.mem_append.mp ht with hold | hnew
    · exact h.safe t hold
    · rw [List.mem_singleton.mp hnew]
      exact hbody r _ h.keeps
  · have hsafe := h.safe _ (List.mem_of_getElem? hthread)
    obtain ⟨hwrite, hguar, hnext⟩ := hsafe p.store .refl
    have haccess : p.access (.step i : Move κ) = some mark := by
      simp [access, hthread, Thread.head]
    refine ⟨⟨hwrite, fun t ht => ?_⟩, Or.inr ⟨mark, haccess, hguar⟩⟩
    rcases List.mem_or_eq_of_mem_set ht with hold | rfl
    · exact (h.safe t hold).rely (.single ⟨h.keeps, ⟨mark, hguar⟩, hwrite⟩)
    · exact hnext

/-- Others, who keep to the contract, take the store elsewhere. -/
theorem AllSafe.interrupted {p : Threads μ σ ε α} (h : AllSafe C p) {s : σ} (hrely : C.rely p.store s) :
    AllSafe C { p with store := s } :=
  ⟨Contract.rely_keeps hrely h.keeps, fun t ht => (h.safe t ht).rely hrely⟩

/-- **The rule.** Where every request is safe from a store with the invariant, every thread is safe in
every state that is reached. -/
theorem allSafe_of_reachable (hinit : ∀ s, init s → C.keeps s)
    (hbody : ∀ r s, C.keeps s → (body r).Safe C (fun _ _ => True) s)
    {ok : Threads μ σ ε α → Move κ → Prop} {p : Threads μ σ ε α}
    (h : (system init body).ReachableVia ok p) : AllSafe C p := by
  refine h.invariant ?_ ?_
  · rintro p ⟨hstore, hthreads⟩
    refine ⟨hinit _ hstore, fun t ht => ?_⟩
    rw [hthreads] at ht
    cases ht
  · intro p m q hp _ hstep
    exact (hp.step hbody hstep).1

end Threads

/-! ## What every access does -/

section each

variable {μ σ ε δ α β κ : Type} {R : σ → σ → Prop}

/-- Every access of the thread changes the store as `R` says, whatever the others have made of it. -/
def Thread.Each (R : σ → σ → Prop) : Thread μ σ ε α → Prop
  | .ret _ => True
  | .raise _ => True
  | .step _ write next => ∀ s, R s (write s) ∧ (next s).Each R

namespace Thread

theorem Each.bind {x : Thread μ σ ε α} {f : α → Thread μ σ ε β} (h : x.Each R)
    (hf : ∀ a, (f a).Each R) : (x >>= f).Each R := by
  induction x with
  | ret a => exact hf a
  | raise e => exact trivial
  | step mark write next ih => exact fun s => ⟨(h s).1, ih s (h s).2⟩

theorem Each.handle {x : Thread μ σ ε α} {handler : ε → Thread μ σ δ α} (h : x.Each R)
    (hhandler : ∀ e, (handler e).Each R) : (x.handle handler).Each R := by
  induction x with
  | ret a => exact trivial
  | raise e => exact hhandler e
  | step mark write next ih => exact fun s => ⟨(h s).1, ih s (h s).2⟩

theorem Each.mono {R' : σ → σ → Prop} (himp : ∀ s t, R s t → R' s t) {x : Thread μ σ ε α}
    (h : x.Each R) : x.Each R' := by
  induction x with
  | ret | raise => exact trivial
  | step mark write next ih => exact fun s => ⟨himp _ _ (h s).1, ih s (h s).2⟩

theorem Each.pure (a : α) : (Pure.pure a : Thread μ σ ε α).Each R := trivial

theorem Each.raise (e : ε) : (Thread.raise e : Thread μ σ ε α).Each R := trivial

theorem Each.lift (r : Except ε α) : (Thread.lift r : Thread μ σ ε α).Each R := by
  cases r <;> exact trivial

theorem Each.raiseIf (c : Prop) [Decidable c] (e : ε) :
    (Thread.raiseIf c e : Thread μ σ ε Unit).Each R := by
  unfold Thread.raiseIf
  split <;> exact trivial

theorem Each.atomic {mark : μ} {x : Prog σ ε α} (h : ∀ s, R s (x s).2) :
    (Thread.atomic mark x).Each R := fun s => ⟨h s, .lift _⟩

end Thread

/-- Accesses that all change the store in one way keep a contract that this way keeps. -/
theorem Thread.Each.safe {C : Contract μ σ} (hC : ∀ mark s t, C.keeps s → R s t → C.keeps t ∧ C.guar mark s t)
    {x : Thread μ σ ε α} (h : x.Each R) {s : σ} (hs : C.keeps s) : x.Safe C (fun _ _ => True) s := by
  induction x generalizing s with
  | ret a => exact fun _ _ => trivial
  | raise e => exact trivial
  | step mark write next ih =>
      intro t hst
      obtain ⟨hwrite, hnext⟩ := h t
      obtain ⟨hkeeps, hguar⟩ := hC mark t (write t) (Contract.rely_keeps hst hs) hwrite
      exact ⟨hkeeps, hguar, ih t hnext hkeeps⟩

/-- **The step lemma.** A move changes the store as `R` says, and what is left of the threads does. -/
theorem Threads.each_step {init : σ → Prop} {body : κ → Thread μ σ ε α} {p q : Threads μ σ ε α}
    {m : Move κ} (hp : ∀ t ∈ p.threads, t.Each R) (hbody : ∀ r, m = .start r → (body r).Each R)
    (hstep : (Threads.system init body).step p m = some q) :
    (∀ t ∈ q.threads, t.Each R) ∧ (q.store = p.store ∨ R p.store q.store) := by
  rcases Threads.step_cases hstep with ⟨r, rfl, rfl⟩ | ⟨i, mark, write, next, rfl, hi, rfl⟩
  · refine ⟨fun t ht => ?_, Or.inl rfl⟩
    rcases List.mem_append.mp ht with hold | hnew
    · exact hp t hold
    · rw [List.mem_singleton.mp hnew]
      exact hbody r rfl
  · obtain ⟨hwrite, hnext⟩ := hp _ (List.mem_of_getElem? hi) p.store
    refine ⟨fun t ht => ?_, Or.inr hwrite⟩
    rcases List.mem_or_eq_of_mem_set ht with hold | rfl
    · exact hp t hold
    · exact hnext

end each

end EnergyAgent.Lib
