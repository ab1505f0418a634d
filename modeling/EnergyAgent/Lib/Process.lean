import EnergyAgent.Lib.Transition

/-!
# Concurrent requests over a shared store

A service answers many requests at once. Each request is a program of store calls: every call is
atomic, and between two calls of one request any number of calls of other requests may happen. A
`Proc` is such a program, cut at its calls; a `Pool` is a store with the requests in progress, and
its runs are the interleavings.

`Proc.Safe` is the rely/guarantee judgement for one request: whatever the others do (as far as
`rely` allows it), the request keeps the invariant and ends in its postcondition.
`Pool.safe_of_reachable` puts the requests together again.
-/

namespace EnergyAgent.Lib

/-- A store with its atomic calls. `exec op x s = none` says that the call is not possible with the
environment's choice `x` (the clock, the drawn identifiers, the outcome of a remote call). -/
structure Backend where
  Op : Type
  Ans : Op → Type
  Store : Type
  Input : Type
  exec : (op : Op) → Input → Store → Option (Ans op × Store)

/-- Some store answers the call with `a`. -/
def Backend.Answers (B : Backend) (op : B.Op) (a : B.Ans op) : Prop :=
  ∃ x s t, B.exec op x s = some (a, t)

/-- A program of store calls that returns an `α` or raises an `ε`. -/
inductive Proc (B : Backend) (ε α : Type)
  | ret (a : α)
  | raise (e : ε)
  | call (op : B.Op) (k : B.Ans op → Proc B ε α)

namespace Proc

variable {B : Backend} {ε α β : Type}

/-- Run `x`, then `f` on what it returned. -/
def bind : Proc B ε α → (α → Proc B ε β) → Proc B ε β
  | .ret a, f => f a
  | .raise e, _ => .raise e
  | .call op k, f => .call op (fun a => (k a).bind f)

instance : Monad (Proc B ε) where
  pure := .ret
  bind := Proc.bind

/-- Run `x`; run `h` on the exception it raises. -/
def handle : Proc B ε α → (ε → Proc B ε α) → Proc B ε α
  | .ret a, _ => .ret a
  | .raise e, h => h e
  | .call op k, h => .call op (fun a => (k a).handle h)

/-- One store call. -/
def ask (op : B.Op) : Proc B ε (B.Ans op) := .call op .ret

/-- Raise `e` when `c` holds. -/
def raiseIf (c : Prop) [Decidable c] (e : ε) : Proc B ε Unit := if c then .raise e else .ret ()

/-- The call a program waits for. -/
def head : Proc B ε α → Option B.Op
  | .call op _ => some op
  | _ => none

/-- The program has returned or raised. -/
def finished (p : Proc B ε α) : Prop := p.head = none

/-- The next call of `p`, made in store `s`, ends `p` with the exception `e`. -/
def RefusedIn (p : Proc B ε α) (s : B.Store) (e : ε) : Prop :=
  ∃ op k, p = .call op k ∧ ∀ x a t, B.exec op x s = some (a, t) → k a = .raise e

@[simp] theorem pure_def (a : α) : (pure a : Proc B ε α) = .ret a := rfl

@[simp] theorem ret_bind (a : α) (f : α → Proc B ε β) : (Proc.ret a >>= f) = f a := rfl

@[simp] theorem raise_bind (e : ε) (f : α → Proc B ε β) :
    ((Proc.raise e : Proc B ε α) >>= f) = .raise e := rfl

@[simp] theorem call_bind (op : B.Op) (k : B.Ans op → Proc B ε α) (f : α → Proc B ε β) :
    (Proc.call op k >>= f) = .call op (fun a => k a >>= f) := rfl

@[simp] theorem ask_bind (op : B.Op) (f : B.Ans op → Proc B ε β) :
    (ask op >>= f) = .call op f := rfl

theorem bind_ret (x : Proc B ε α) : (x >>= fun a => .ret a) = x := by
  induction x with
  | ret | raise => rfl
  | call op k ih => exact congrArg (Proc.call op) (funext ih)

theorem bind_assoc {γ : Type} (x : Proc B ε α) (f : α → Proc B ε β) (g : β → Proc B ε γ) :
    (x >>= f) >>= g = x >>= fun a => f a >>= g := by
  induction x with
  | ret | raise => rfl
  | call op k ih => exact congrArg (Proc.call op) (funext ih)

/-- What is done with the result of a handled program is done with both its ends. -/
theorem handle_map (x : Proc B ε α) (h : ε → Proc B ε α) (f : α → β) :
    (x.handle h >>= fun a => .ret (f a)) =
      (x >>= fun a => .ret (f a)).handle fun e => h e >>= fun a => .ret (f a) := by
  induction x with
  | ret | raise => rfl
  | call op k ih => exact congrArg (Proc.call op) (funext ih)

end Proc

/-- A call as it was made: by which request, which call, with which answer. -/
structure Event (B : Backend) (κ : Type) where
  task : Nat
  request : κ
  op : B.Op
  ans : B.Ans op

/-- The store with the calls made so far, oldest first. -/
structure Config (B : Backend) (κ : Type) where
  store : B.Store
  history : List (Event B κ)

/-- Request `r`, the `i`-th of the pool, makes the call `op`. -/
def Config.exec {B : Backend} {κ : Type} (c : Config B κ) (i : Nat) (r : κ) (op : B.Op)
    (x : B.Input) : Option (B.Ans op × Config B κ) :=
  (B.exec op x c.store).map fun (a, s) => (a, ⟨s, c.history ++ [⟨i, r, op, a⟩]⟩)

theorem Config.exec_eq_some {B : Backend} {κ : Type} {c d : Config B κ} {i : Nat} {r : κ}
    {op : B.Op} {x : B.Input} {a : B.Ans op} (h : c.exec i r op x = some (a, d)) :
    B.exec op x c.store = some (a, d.store) ∧ d.history = c.history ++ [⟨i, r, op, a⟩] := by
  obtain ⟨⟨a', s⟩, hexec, heq⟩ := Option.map_eq_some_iff.mp h
  cases heq
  exact ⟨hexec, rfl⟩

/-- The calls of request `i`. -/
def own {B : Backend} {κ : Type} (i : Nat) (history : List (Event B κ)) : List (Event B κ) :=
  history.filter fun e => e.task = i

/-- Between `c` and `d` only other requests than `i` have made calls. -/
def Config.Others {B : Backend} {κ : Type} (i : Nat) (c d : Config B κ) : Prop :=
  ∃ es, d.history = c.history ++ es ∧ ∀ e ∈ es, e.task ≠ i

namespace Config

variable {B : Backend} {κ : Type} {i : Nat} {c d e : Config B κ}

theorem Others.refl : Others i c c := ⟨[], (List.append_nil _).symm, by simp⟩

theorem Others.trans (h : Others i c d) (h' : Others i d e) : Others i c e := by
  obtain ⟨es, hd, hes⟩ := h
  obtain ⟨es', he, hes'⟩ := h'
  refine ⟨es ++ es', by rw [he, hd, List.append_assoc], fun ev hev => ?_⟩
  rcases List.mem_append.mp hev with hleft | hright
  · exact hes ev hleft
  · exact hes' ev hright

theorem Others.mem (h : Others i c d) {ev : Event B κ} (hev : ev ∈ c.history) :
    ev ∈ d.history := by
  obtain ⟨es, hd, -⟩ := h
  exact hd ▸ List.mem_append_left _ hev

theorem Others.own_eq (h : Others i c d) : own i d.history = own i c.history := by
  obtain ⟨es, hd, hes⟩ := h
  have hnone : es.filter (fun e => e.task = i) = [] := by simpa using hes
  simp only [own, hd, List.filter_append, hnone, List.append_nil]

variable {r : κ} {op : B.Op} {x : B.Input} {a : B.Ans op}

theorem exec_own (h : c.exec i r op x = some (a, d)) :
    own i d.history = own i c.history ++ [⟨i, r, op, a⟩] := by
  simp [own, (exec_eq_some h).2, List.filter_append]

theorem exec_mem (h : c.exec i r op x = some (a, d)) {ev : Event B κ} (hev : ev ∈ c.history) :
    ev ∈ d.history := by
  rw [(exec_eq_some h).2]
  exact List.mem_append_left _ hev

theorem exec_made (h : c.exec i r op x = some (a, d)) : ⟨i, r, op, a⟩ ∈ d.history := by
  rw [(exec_eq_some h).2]
  exact List.mem_append_right _ (List.mem_singleton_self _)

/-- A call of another request is one of the others. -/
theorem exec_others (h : c.exec i r op x = some (a, d)) {j : Nat} (hj : j ≠ i) : Others j c d :=
  ⟨[⟨i, r, op, a⟩], (exec_eq_some h).2, by simpa using Ne.symm hj⟩

end Config

/-- A request in progress: what was asked, and what is left of its program. -/
structure Task (B : Backend) (κ ε α : Type) where
  request : κ
  rest : Proc B ε α

structure Pool (B : Backend) (κ ε α : Type) where
  config : Config B κ
  tasks : List (Task B κ ε α)

/-- What happens next: a request arrives, or request `i` makes its next call. A request that is
never scheduled again has died. -/
inductive Move (B : Backend) (κ : Type)
  | start (r : κ)
  | step (i : Nat) (x : B.Input)

namespace Pool

variable {B : Backend} {κ ε α : Type}

/-- Let request `i` make its next call. -/
def advance (p : Pool B κ ε α) (i : Nat) (x : B.Input) : Option (Pool B κ ε α) :=
  match p.tasks[i]? with
  | some ⟨r, .call op k⟩ =>
      (p.config.exec i r op x).map fun (a, c) => ⟨c, p.tasks.set i ⟨r, k a⟩⟩
  | _ => none

/-- The interleavings of the requests, whose programs `body` gives. -/
def system (init : B.Store → Prop) (body : κ → Proc B ε α) :
    TransitionSystem (Pool B κ ε α) (Move B κ) where
  init p := init p.config.store ∧ p.config.history = [] ∧ p.tasks = []
  step p
    | .start r => some { p with tasks := p.tasks ++ [⟨r, body r⟩] }
    | .step i x => p.advance i x

/-- **What one move does.** -/
theorem step_cases {init : B.Store → Prop} {body : κ → Proc B ε α} {p q : Pool B κ ε α}
    {m : Move B κ} (h : (system init body).step p m = some q) :
    (∃ r, m = .start r ∧ q = { p with tasks := p.tasks ++ [⟨r, body r⟩] }) ∨
    (∃ i x r op k a c, m = .step i x ∧ p.tasks[i]? = some ⟨r, .call op k⟩ ∧
      p.config.exec i r op x = some (a, c) ∧ q = ⟨c, p.tasks.set i ⟨r, k a⟩⟩) := by
  cases m with
  | start r =>
      simp only [system, Option.some.injEq] at h
      exact Or.inl ⟨r, rfl, h.symm⟩
  | step i x =>
      simp only [system, advance] at h
      split at h
      · next r op k htask =>
          obtain ⟨⟨a, c⟩, hexec, heq⟩ := Option.map_eq_some_iff.mp h
          exact Or.inr ⟨i, x, r, op, k, a, c, rfl, htask, hexec, heq.symm⟩
      · cases h

/-- A request found after an arrival was there before, or is the new one. -/
theorem task_start {ts : List (Task B κ ε α)} {t u : Task B κ ε α} {j : Nat}
    (h : (ts ++ [u])[j]? = some t) : ts[j]? = some t ∨ (j = ts.length ∧ t = u) := by
  rw [List.getElem?_append] at h
  split at h
  · exact Or.inl h
  · next hlt =>
      rw [List.getElem?_singleton] at h
      split at h
      · next hzero =>
          refine Or.inr ⟨?_, (Option.some.inj h).symm⟩
          omega
      · cases h

/-- A request found after a call is the one that made it, or as it was. -/
theorem task_step {ts : List (Task B κ ε α)} {t u : Task B κ ε α} {i j : Nat}
    (h : (ts.set i u)[j]? = some t) : (j = i ∧ t = u) ∨ (j ≠ i ∧ ts[j]? = some t) := by
  rw [List.getElem?_set] at h
  split at h
  · next hij =>
      split at h
      · exact Or.inl ⟨hij.symm, (Option.some.inj h).symm⟩
      · cases h
  · next hij => exact Or.inr ⟨Ne.symm hij, h⟩

end Pool

/-! ## Rely and guarantee -/

section rely

variable {B : Backend} {κ ε α β : Type}

/-- What the requests promise each other. `keeps` is the invariant of the store and its history,
`guar` is what every call promises, and `rely i head` says what the others may do between the calls
of request `i` while it waits for the call `head` (`none`: it has finished). A call that a request
makes outside `may` is none that the judgement speaks of. -/
structure Discipline (B : Backend) (κ : Type) where
  keeps : Config B κ → Prop
  guar : Nat → Config B κ → Config B κ → Prop
  rely : Nat → Option B.Op → Config B κ → Config B κ → Prop
  may : κ → B.Op → Config B κ → Prop
  refl : ∀ i o c, rely i o c c
  trans : ∀ i o c d e, rely i o c d → rely i o d e → rely i o c e

/-- **The judgement for one request.** Every call of request `i`, wherever the others have taken
the store meanwhile, keeps the invariant and the promise, and the request ends as `post` says. -/
def Proc.Safe (R : Discipline B κ) (i : Nat) (r : κ) (post : Except ε α → Config B κ → Prop) :
    Proc B ε α → Config B κ → Prop
  | .ret a, c => ∀ d, R.rely i none c d → R.keeps d → post (.ok a) d
  | .raise e, c => ∀ d, R.rely i none c d → R.keeps d → post (.error e) d
  | .call op k, c => ∀ d x a e, R.rely i (some op) c d → R.keeps d → R.may r op d →
      d.exec i r op x = some (a, e) → R.keeps e ∧ R.guar i d e ∧ (k a).Safe R i r post e

/-- Every call the program can make, whatever the store answers, is one of `allowed`. -/
def Proc.Uses (allowed : B.Op → Prop) : Proc B ε α → Prop
  | .ret _ => True
  | .raise _ => True
  | .call op k => allowed op ∧ ∀ a, B.Answers op a → (k a).Uses allowed

theorem Proc.Uses.bind {allowed : B.Op → Prop} {x : Proc B ε α} {f : α → Proc B ε β}
    (hx : x.Uses allowed) (hf : ∀ a, (f a).Uses allowed) : (x >>= f).Uses allowed := by
  induction x with
  | ret a => exact hf a
  | raise e => exact trivial
  | call op k ih => exact ⟨hx.1, fun a ha => ih a (hx.2 a ha)⟩

theorem Proc.Uses.handle {allowed : B.Op → Prop} {x : Proc B ε α} {h : ε → Proc B ε α}
    (hx : x.Uses allowed) (hh : ∀ e, (h e).Uses allowed) : (x.handle h).Uses allowed := by
  induction x with
  | ret a => exact trivial
  | raise e => exact hh e
  | call op k ih => exact ⟨hx.1, fun a ha => ih a (hx.2 a ha)⟩

/-- Every value the program can return is as `post` says. -/
def Proc.Returns (post : α → Prop) : Proc B ε α → Prop
  | .ret a => post a
  | .raise _ => True
  | .call op k => ∀ a, B.Answers op a → (k a).Returns post

theorem Proc.returns_true (p : Proc B ε α) : p.Returns (fun _ => True) := by
  induction p with
  | ret | raise => exact trivial
  | call op k ih => exact fun a _ => ih a

theorem Proc.Returns.bind {post : α → Prop} {post' : β → Prop} {x : Proc B ε α}
    {f : α → Proc B ε β} (hx : x.Returns post) (hf : ∀ a, post a → (f a).Returns post') :
    (x >>= f).Returns post' := by
  induction x with
  | ret a => exact hf a hx
  | raise e => exact trivial
  | call op k ih => exact fun a ha => ih a (hx a ha)

theorem Proc.Returns.mono {post post' : α → Prop} {p : Proc B ε α} (h : p.Returns post)
    (himp : ∀ a, post a → post' a) : p.Returns post' := by
  induction p with
  | ret a => exact himp a h
  | raise e => exact trivial
  | call op k ih => exact fun a ha => ih a (h a ha)

theorem Proc.Returns.handle {post : α → Prop} {x : Proc B ε α} {h : ε → Proc B ε α}
    (hx : x.Returns post) (hh : ∀ e, (h e).Returns post) : (x.handle h).Returns post := by
  induction x with
  | ret a => exact hx
  | raise e => exact hh e
  | call op k ih => exact fun a ha => ih a (hx a ha)

theorem Proc.Uses.bind_of_returns {allowed : B.Op → Prop} {post : α → Prop} {x : Proc B ε α}
    {f : α → Proc B ε β} (hx : x.Uses allowed) (hret : x.Returns post)
    (hf : ∀ a, post a → (f a).Uses allowed) : (x >>= f).Uses allowed := by
  induction x with
  | ret a => exact hf a hret
  | raise e => exact trivial
  | call op k ih => exact ⟨hx.1, fun a ha => ih a (hx.2 a ha) (hret a ha)⟩

/-- Every exception the program can raise is as `post` says. -/
def Proc.Raises (post : ε → Prop) : Proc B ε α → Prop
  | .ret _ => True
  | .raise e => post e
  | .call op k => ∀ a, B.Answers op a → (k a).Raises post

theorem Proc.Raises.bind {post : ε → Prop} {x : Proc B ε α} {f : α → Proc B ε β}
    (hx : x.Raises post) (hf : ∀ a, (f a).Raises post) : (x >>= f).Raises post := by
  induction x with
  | ret a => exact hf a
  | raise e => exact hx
  | call op k ih => exact fun a ha => ih a (hx a ha)

theorem Proc.raises_raiseIf {post : ε → Prop} (c : Prop) [Decidable c] {e : ε} (he : post e) :
    (Proc.raiseIf (B := B) c e).Raises post := by
  unfold Proc.raiseIf
  split
  · exact he
  · exact trivial

theorem Proc.uses_raiseIf {allowed : B.Op → Prop} (c : Prop) [Decidable c] (e : ε) :
    (Proc.raiseIf (B := B) c e).Uses allowed := by
  unfold Proc.raiseIf
  split <;> exact trivial

/-- The program raises `e` only upon an answer of which `cause` holds. -/
def Proc.RaisesUpon (e : ε) (cause : (op : B.Op) → B.Ans op → Prop) : Proc B ε α → Prop
  | .ret _ => True
  | .raise e' => e' ≠ e
  | .call op k => ∀ a, B.Answers op a →
      (cause op a ∧ k a = .raise e) ∨ (k a).RaisesUpon e cause

section raisesUpon

variable {e : ε} {cause : (op : B.Op) → B.Ans op → Prop}

theorem Proc.Raises.upon {p : Proc B ε α} (h : p.Raises (· ≠ e)) : p.RaisesUpon e cause := by
  induction p with
  | ret a => exact trivial
  | raise e' => exact h
  | call op k ih => exact fun a ha => Or.inr (ih a (h a ha))

theorem Proc.RaisesUpon.bind {x : Proc B ε α} {f : α → Proc B ε β} (hx : x.RaisesUpon e cause)
    (hf : ∀ a, (f a).RaisesUpon e cause) : (x >>= f).RaisesUpon e cause := by
  induction x with
  | ret a => exact hf a
  | raise e' => exact hx
  | call op k ih =>
      intro a ha
      rcases hx a ha with ⟨hcause, hraise⟩ | hrest
      · exact Or.inl ⟨hcause, congrArg (Proc.bind · f) hraise⟩
      · exact Or.inr (ih a hrest)

end raisesUpon

/-- The calls of the program are `allowed`, but for a last one of `last`, after which it raises. -/
def Proc.UsesUntil (allowed last : B.Op → Prop) : Proc B ε α → Prop
  | .ret _ => True
  | .raise _ => True
  | .call op k => (allowed op ∧ ∀ a, B.Answers op a → (k a).UsesUntil allowed last) ∨
      (last op ∧ ∀ a, ∃ e, k a = .raise e)

section usesUntil

variable {allowed last : B.Op → Prop}

theorem Proc.Uses.usesUntil {p : Proc B ε α} (h : p.Uses allowed) : p.UsesUntil allowed last := by
  induction p with
  | ret | raise => exact trivial
  | call op k ih => exact Or.inl ⟨h.1, fun a ha => ih a (h.2 a ha)⟩

theorem Proc.UsesUntil.bind {post : α → Prop} {x : Proc B ε α} {f : α → Proc B ε β}
    (hx : x.UsesUntil allowed last) (hret : x.Returns post)
    (hf : ∀ a, post a → (f a).UsesUntil allowed last) :
    (x >>= f).UsesUntil allowed last := by
  induction x with
  | ret a => exact hf a hret
  | raise e => exact trivial
  | call op k ih =>
      rcases hx with ⟨hop, hk⟩ | ⟨hop, hk⟩
      · exact Or.inl ⟨hop, fun a ha => ih a (hk a ha) (hret a ha)⟩
      · refine Or.inr ⟨hop, fun a => ?_⟩
        obtain ⟨e, he⟩ := hk a
        exact ⟨e, congrArg (Proc.bind · f) he⟩

theorem Proc.Uses.handleUntil {x : Proc B ε α} {h : ε → Proc B ε α} (hx : x.Uses allowed)
    (hh : ∀ e, (h e).UsesUntil allowed last) : (x.handle h).UsesUntil allowed last := by
  induction x with
  | ret a => exact trivial
  | raise e => exact hh e
  | call op k ih => exact Or.inl ⟨hx.1, fun a ha => ih a (hx.2 a ha)⟩

end usesUntil

/-- A check, and what follows it when it passes. -/
theorem Proc.uses_raiseIf_bind {allowed : B.Op → Prop} {c : Prop} [Decidable c] {e : ε}
    {f : Unit → Proc B ε α} (h : ¬ c → (f ()).Uses allowed) :
    (Proc.raiseIf c e >>= f).Uses allowed := by
  unfold Proc.raiseIf
  split
  · exact trivial
  · next hc => exact h hc

theorem Proc.Uses.mono {allowed allowed' : B.Op → Prop} {p : Proc B ε α} (h : p.Uses allowed)
    (himp : ∀ op, allowed op → allowed' op) : p.Uses allowed' := by
  induction p with
  | ret | raise => exact trivial
  | call op k ih => exact ⟨himp op h.1, fun a ha => ih a (h.2 a ha)⟩

theorem Proc.uses_true (p : Proc B ε α) : p.Uses (fun _ => True) := by
  induction p with
  | ret | raise => exact trivial
  | call op k ih => exact ⟨trivial, fun a _ => ih a⟩

namespace Proc.Safe

variable {R : Discipline B κ} {i : Nat} {r : κ} {post : Except ε α → Config B κ → Prop}
  {c d : Config B κ}

/-- What the others may do leaves the judgement intact. -/
theorem stable {p : Proc B ε α} (h : p.Safe R i r post c) (hrely : R.rely i p.head c d) :
    p.Safe R i r post d := by
  cases p with
  | ret a => exact fun e he hk => h e (R.trans _ _ _ _ _ hrely he) hk
  | raise e' => exact fun e he hk => h e (R.trans _ _ _ _ _ hrely he) hk
  | call op k =>
      exact fun e x a f he hk hmay hexec => h e x a f (R.trans _ _ _ _ _ hrely he) hk hmay hexec

/-- One call after the other. -/
theorem bind {x : Proc B ε α} {f : α → Proc B ε β} {post' : Except ε β → Config B κ → Prop}
    (hx : x.Safe R i r post c) (hkeeps : R.keeps c)
    (hret : ∀ a d, R.keeps d → post (.ok a) d → (f a).Safe R i r post' d)
    (hraise : ∀ e d, R.keeps d → post (.error e) d → post' (.error e) d) :
    (x >>= f).Safe R i r post' c := by
  induction x generalizing c with
  | ret a => exact hret a c hkeeps (hx c (R.refl _ _ _) hkeeps)
  | raise e => exact fun d hd hk => hraise e d hk (hx d hd hk)
  | call op k ih =>
      intro d y a e hd hk hmay hexec
      obtain ⟨he, hguar, hrest⟩ := hx d y a e hd hk hmay hexec
      exact ⟨he, hguar, ih a hrest he⟩

/-- A call, and what follows it. -/
theorem ask {op : B.Op} {f : B.Ans op → Proc B ε α}
    (hop : ∀ d x a e, R.keeps d → R.may r op d → d.exec i r op x = some (a, e) →
      R.keeps e ∧ R.guar i d e)
    (h : ∀ d x a e, R.rely i (some op) c d → R.keeps d → R.may r op d →
      d.exec i r op x = some (a, e) → R.keeps e → R.guar i d e → (f a).Safe R i r post e) :
    (Proc.call op f).Safe R i r post c := by
  intro d x a e hrely hk hmay hexec
  obtain ⟨hkeeps, hguar⟩ := hop d x a e hk hmay hexec
  exact ⟨hkeeps, hguar, h d x a e hrely hk hmay hexec hkeeps hguar⟩

/-- A check, and what follows it. -/
theorem raiseIf {q : Prop} [Decidable q] {e : ε} {f : Unit → Proc B ε α}
    (hraise : q → ∀ d, R.rely i none c d → R.keeps d → post (.error e) d)
    (h : ¬ q → (f ()).Safe R i r post c) : (Proc.raiseIf q e >>= f).Safe R i r post c := by
  unfold Proc.raiseIf
  split
  · next hq => exact hraise hq
  · next hq => exact h hq

/-- A program of allowed calls is safe when nothing is asked of its end. -/
theorem of_uses {allowed : B.Op → Prop} {p : Proc B ε α} (h : p.Uses allowed)
    (hop : ∀ op d x a e, allowed op → R.keeps d → R.may r op d → d.exec i r op x = some (a, e) →
      R.keeps e ∧ R.guar i d e) (hpost : ∀ r d, R.keeps d → post r d) :
    p.Safe R i r post c := by
  induction p generalizing c with
  | ret a => exact fun d _ hk => hpost _ d hk
  | raise e => exact fun d _ hk => hpost _ d hk
  | call op k ih =>
      intro d x a e _ hk hmay hexec
      obtain ⟨hkeeps, hguar⟩ := hop op d x a e h.1 hk hmay hexec
      exact ⟨hkeeps, hguar, ih a (h.2 a ⟨x, d.store, e.store, (Config.exec_eq_some hexec).1⟩)⟩

end Proc.Safe

namespace Pool

variable {init : B.Store → Prop} {body : κ → Proc B ε α} {R : Discipline B κ}
  {post : Nat → κ → Except ε α → Config B κ → Prop}

/-- What is left of a request makes only calls that its program may make. -/
theorem uses_of_reachable {allowed : κ → B.Op → Prop} {ok : Pool B κ ε α → Move B κ → Prop}
    (hbody : ∀ r, (body r).Uses (allowed r)) {p : Pool B κ ε α}
    (h : (system init body).ReachableVia ok p) :
    ∀ (i : Nat) (t : Task B κ ε α), p.tasks[i]? = some t → t.rest.Uses (allowed t.request) := by
  refine h.invariant (I := fun p : Pool B κ ε α => ∀ (i : Nat) (t : Task B κ ε α),
    p.tasks[i]? = some t → t.rest.Uses (allowed t.request)) ?_ ?_
  · rintro p ⟨-, -, htasks⟩ i t ht
    simp [htasks] at ht
  · intro p m q hp _ hstep j t ht
    rcases step_cases hstep with ⟨r, rfl, rfl⟩ | ⟨i, x, r, op, k, a, c, rfl, htask, hexec, rfl⟩
    · rcases task_start ht with hold | ⟨-, rfl⟩
      · exact hp j t hold
      · exact hbody r
    · rcases task_step ht with ⟨-, rfl⟩ | ⟨-, hold⟩
      · exact (hp i _ htask).2 a ⟨x, _, _, (Config.exec_eq_some hexec).1⟩
      · exact hp j t hold

/-- What is left of a request raises `e` only upon such an answer, or has raised it. -/
theorem raisesUpon_of_reachable {e : ε} {cause : κ → (op : B.Op) → B.Ans op → Prop}
    {ok : Pool B κ ε α → Move B κ → Prop} (hbody : ∀ r, (body r).RaisesUpon e (cause r))
    {p : Pool B κ ε α} (h : (system init body).ReachableVia ok p) :
    ∀ (i : Nat) (t : Task B κ ε α), p.tasks[i]? = some t →
      t.rest = .raise e ∨ t.rest.RaisesUpon e (cause t.request) := by
  refine h.invariant (I := fun p : Pool B κ ε α => ∀ (i : Nat) (t : Task B κ ε α),
    p.tasks[i]? = some t → t.rest = .raise e ∨ t.rest.RaisesUpon e (cause t.request)) ?_ ?_
  · rintro p ⟨-, -, htasks⟩ i t ht
    simp [htasks] at ht
  · intro p m q hp _ hstep j t ht
    rcases step_cases hstep with ⟨r, rfl, rfl⟩ | ⟨i, x, r, op, k, a, c, rfl, htask, hexec, rfl⟩
    · rcases task_start ht with hold | ⟨-, rfl⟩
      · exact hp j t hold
      · exact Or.inr (hbody r)
    · rcases task_step ht with ⟨-, rfl⟩ | ⟨-, hold⟩
      · rcases hp i _ htask with hraised | hrest
        · cases hraised
        · rcases hrest a ⟨x, _, _, (Config.exec_eq_some hexec).1⟩ with ⟨-, hraise⟩ | hupon
          · exact Or.inl hraise
          · exact Or.inr hupon
      · exact hp j t hold

/-- **The step that raises `e`** is a call with such an answer. -/
theorem step_raises {e : ε} {cause : κ → (op : B.Op) → B.Ans op → Prop}
    {ok : Pool B κ ε α → Move B κ → Prop} (hbody : ∀ r, (body r).RaisesUpon e (cause r))
    {p q : Pool B κ ε α} (h : (system init body).ReachableVia ok p) {i : Nat} {x : B.Input} {r : κ}
    (hstep : (system init body).step p (.step i x) = some q)
    (hraised : q.tasks[i]? = some ⟨r, .raise e⟩) :
    ∃ op a, B.exec op x p.config.store = some (a, q.config.store) ∧ cause r op a := by
  rcases step_cases hstep with ⟨_, hmove, -⟩ | ⟨j, y, r', op, k, a, c, hmove, htask, hexec, rfl⟩
  · cases hmove
  · cases hmove
    obtain ⟨hstore, -⟩ := Config.exec_eq_some hexec
    have hrest := (raisesUpon_of_reachable hbody h i _ htask).resolve_left nofun
    rcases task_step hraised with ⟨-, heq⟩ | ⟨hne, -⟩
    · obtain ⟨rfl, hk⟩ := Task.mk.inj heq
      rcases hrest a ⟨x, _, _, hstore⟩ with ⟨hcause, -⟩ | hupon
      · exact ⟨op, a, hstore, hcause⟩
      · rw [← hk] at hupon
        exact absurd rfl hupon
    · exact absurd rfl hne

/-- The invariant holds, every call was made by a request of the pool, and every request in
progress is safe. -/
structure AllSafe (R : Discipline B κ) (post : Nat → κ → Except ε α → Config B κ → Prop)
    (p : Pool B κ ε α) : Prop where
  keeps : R.keeps p.config
  made : ∀ e ∈ p.config.history, e.task < p.tasks.length
  safe : ∀ (i : Nat) (t : Task B κ ε α), p.tasks[i]? = some t →
    t.rest.Safe R i t.request (post i t.request) p.config

/-- A finished request has ended as its postcondition says. -/
theorem AllSafe.post_ret {p : Pool B κ ε α} (h : AllSafe R post p) {i : Nat} {r : κ} {a : α}
    (htask : p.tasks[i]? = some ⟨r, .ret a⟩) : post i r (.ok a) p.config :=
  h.safe i _ htask p.config (R.refl _ _ _) h.keeps

theorem AllSafe.post_raise {p : Pool B κ ε α} (h : AllSafe R post p) {i : Nat} {r : κ} {e : ε}
    (htask : p.tasks[i]? = some ⟨r, .raise e⟩) : post i r (.error e) p.config :=
  h.safe i _ htask p.config (R.refl _ _ _) h.keeps

/-- A call keeps the invariant and the promise. -/
theorem AllSafe.call {p : Pool B κ ε α} (h : AllSafe R post p) {i : Nat} {x : B.Input} {r : κ}
    {op : B.Op} {k : B.Ans op → Proc B ε α} {a : B.Ans op} {c : Config B κ}
    (htask : p.tasks[i]? = some ⟨r, .call op k⟩) (hmay : R.may r op p.config)
    (hexec : p.config.exec i r op x = some (a, c)) :
    R.keeps c ∧ R.guar i p.config c ∧ (k a).Safe R i r (post i r) c :=
  h.safe i _ htask p.config x a c (R.refl _ _ _) h.keeps hmay hexec

/-- **The rule for the pool.** Where every request is safe from a store with the invariant in which
it has not made a call yet, and a call that meets the guard `ok` and the promise is one that the
other requests rely on, every request is safe in every state that the guarded interleavings
reach. -/
theorem safe_of_reachable {ok : Pool B κ ε α → Move B κ → Prop}
    (hinit : ∀ s, init s → R.keeps ⟨s, []⟩)
    (hbody : ∀ i r c, R.keeps c → (∀ e ∈ c.history, e.task ≠ i) →
      (body r).Safe R i r (post i r) c)
    (hmay : ∀ p i x r op k, AllSafe R post p → ok p (.step i x) →
      p.tasks[i]? = some ⟨r, .call op k⟩ → R.may r op p.config)
    (hrely : ∀ p i x r op k a c, AllSafe R post p → ok p (.step i x) →
      p.tasks[i]? = some ⟨r, .call op k⟩ → p.config.exec i r op x = some (a, c) → R.keeps c →
      R.guar i p.config c →
      ∀ j t, j ≠ i → p.tasks[j]? = some t → R.rely j t.rest.head p.config c)
    {p : Pool B κ ε α} (h : (system init body).ReachableVia ok p) : AllSafe R post p := by
  refine h.invariant ?_ ?_
  · rintro p ⟨hstore, hhist, htasks⟩
    have hkeeps : R.keeps p.config := by
      have := hinit _ hstore
      rwa [← hhist] at this
    exact ⟨hkeeps, by simp [hhist], fun i t ht => by simp [htasks] at ht⟩
  · intro p m q hp hok hstep
    rcases step_cases hstep with ⟨r, rfl, rfl⟩ | ⟨i, x, r, op, k, a, c, rfl, htask, hexec, rfl⟩
    · refine ⟨hp.keeps, fun e he => ?_, fun j t ht => ?_⟩
      · have := hp.made e he
        rw [List.length_append]
        omega
      · rcases task_start ht with hold | ⟨rfl, rfl⟩
        · exact hp.safe j t hold
        · exact hbody _ _ _ hp.keeps fun e he => Nat.ne_of_lt (hp.made e he)
    · obtain ⟨hkeeps, hguar, hrest⟩ := hp.call htask (hmay p i x r op k hp hok htask) hexec
      have hlt : i < p.tasks.length := (List.getElem?_eq_some_iff.mp htask).1
      refine ⟨hkeeps, fun e he => ?_, fun j t ht => ?_⟩
      · rw [List.length_set]
        rw [(Config.exec_eq_some hexec).2] at he
        rcases List.mem_append.mp he with hold | hlast
        · exact hp.made e hold
        · rw [List.mem_singleton.mp hlast]
          exact hlt
      · rcases task_step ht with ⟨rfl, rfl⟩ | ⟨hj, hold⟩
        · exact hrest
        · exact (hp.safe j t hold).stable
            (hrely p i x r op k a c hp hok htask hexec hkeeps hguar j t hj hold)

end Pool

end rely

end EnergyAgent.Lib
