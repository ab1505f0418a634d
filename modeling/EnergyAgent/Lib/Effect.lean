import Mathlib.Logic.Basic

/-!
# Programs over a store that may raise

The Python code under study writes to a store step by step and may raise in between; what was
written before the exception stays written. `Prog σ ε α` is that shape. A database transaction is
the other shape, all or nothing, and enters a program through `Prog.transaction`.

`Prog.Triple` is the matching notion of pre- and postcondition: from a store with `P` the program
either returns a value in a store with `Q`, or raises in a store with `E`.
-/

namespace EnergyAgent.Lib

/-- A program over a store `σ` that returns an `α` or raises an `ε`; either way it leaves a
store behind. -/
def Prog (σ ε α : Type) : Type := σ → Except ε α × σ

namespace Prog

variable {σ ε α β : Type}

instance : Monad (Prog σ ε) where
  pure a := fun s => (.ok a, s)
  bind x f := fun s =>
    match x s with
    | (.ok a, s') => f a s'
    | (.error e, s') => (.error e, s')

/-- Raise `e`. -/
def raise (e : ε) : Prog σ ε α := fun s => (.error e, s)

/-- Raise `e` when `c` holds. -/
def raiseIf (c : Prop) [Decidable c] (e : ε) : Prog σ ε Unit :=
  fun s => if c then (.error e, s) else (.ok (), s)

/-- Read the store. -/
def read (f : σ → α) : Prog σ ε α := fun s => (.ok (f s), s)

/-- Write the store. -/
def write (f : σ → σ) : Prog σ ε Unit := fun s => (.ok (), f s)

/-- Return the value or raise the error that an outcome carries. -/
def lift (r : Except ε α) : Prog σ ε α := fun s => (r, s)

/-- All or nothing: an error leaves the store as it was. -/
def transaction (t : σ → Except ε (α × σ)) : Prog σ ε α := fun s =>
  match t s with
  | .ok (a, s') => (.ok a, s')
  | .error e => (.error e, s)

/-- Run `x`; if it raises, run the handler in the store `x` left behind. -/
def handle (x : Prog σ ε α) (h : ε → Prog σ ε α) : Prog σ ε α := fun s =>
  match x s with
  | (.ok a, s') => (.ok a, s')
  | (.error e, s') => h e s'

/-! ### One equation per construct -/

@[simp] theorem pure_apply (a : α) (s : σ) : (pure a : Prog σ ε α) s = (.ok a, s) := rfl

@[simp] theorem raise_apply (e : ε) (s : σ) : (raise e : Prog σ ε α) s = (.error e, s) := rfl

@[simp] theorem read_apply (f : σ → α) (s : σ) : (read f : Prog σ ε α) s = (.ok (f s), s) := rfl

@[simp] theorem write_apply (f : σ → σ) (s : σ) : (write f : Prog σ ε Unit) s = (.ok (), f s) := rfl

@[simp] theorem lift_apply (r : Except ε α) (s : σ) : (lift r : Prog σ ε α) s = (r, s) := rfl

theorem bind_apply (x : Prog σ ε α) (f : α → Prog σ ε β) (s : σ) :
    (x >>= f) s = match x s with
      | (.ok a, s') => f a s'
      | (.error e, s') => (.error e, s') := rfl

theorem bind_of_ok {x : Prog σ ε α} {f : α → Prog σ ε β} {s s' : σ} {a : α}
    (h : x s = (.ok a, s')) : (x >>= f) s = f a s' := by
  rw [bind_apply, h]

theorem bind_of_error {x : Prog σ ε α} {f : α → Prog σ ε β} {s s' : σ} {e : ε}
    (h : x s = (.error e, s')) : (x >>= f) s = (.error e, s') := by
  rw [bind_apply, h]

/-- Peel one statement off a program: either it raised and so did the whole, or it returned and
the rest ran from the store it left. -/
theorem bind_cases {x : Prog σ ε α} {f : α → Prog σ ε β} {s t : σ} {r : Except ε β}
    (h : (x >>= f) s = (r, t)) :
    (∃ e, x s = (.error e, t) ∧ r = .error e) ∨ (∃ a s', x s = (.ok a, s') ∧ f a s' = (r, t)) := by
  rw [bind_apply] at h
  cases hx : x s with
  | mk res s' =>
      rw [hx] at h
      cases res with
      | ok a => exact Or.inr ⟨a, s', rfl, h⟩
      | error e =>
          cases h
          exact Or.inl ⟨e, rfl, rfl⟩

theorem bind_eq_ok {x : Prog σ ε α} {f : α → Prog σ ε β} {s t : σ} {b : β}
    (h : (x >>= f) s = (.ok b, t)) : ∃ a s', x s = (.ok a, s') ∧ f a s' = (.ok b, t) := by
  rcases bind_cases h with ⟨e, _, he⟩ | h'
  · cases he
  · exact h'

theorem bind_lift_eq_ok {r : Except ε α} {f : α → Prog σ ε β} {s t : σ} {b : β}
    (h : (lift r >>= f) s = (.ok b, t)) : ∃ a, r = .ok a ∧ f a s = (.ok b, t) := by
  obtain ⟨a, s', hlift, hrest⟩ := bind_eq_ok h
  cases hlift
  exact ⟨a, rfl, hrest⟩

@[simp] theorem bind_read (g : σ → α) (f : α → Prog σ ε β) (s : σ) :
    (read g >>= f) s = f (g s) s := rfl

@[simp] theorem bind_write (g : σ → σ) (f : Unit → Prog σ ε β) (s : σ) :
    (write g >>= f) s = f () (g s) := rfl

/-! ### The monad laws -/

theorem pure_bind (a : α) (f : α → Prog σ ε β) : (pure a >>= f) = f a := rfl

theorem bind_pure (x : Prog σ ε α) : (x >>= pure) = x := by
  funext s
  rw [bind_apply]
  cases x s with
  | mk r s' => cases r <;> rfl

theorem bind_assoc {δ : Type} (x : Prog σ ε α) (f : α → Prog σ ε β) (g : β → Prog σ ε δ) :
    (x >>= f >>= g) = x >>= fun a => f a >>= g := by
  funext s
  simp only [bind_apply]
  cases x s with
  | mk r s' => cases r <;> rfl

/-- A computation without a store, statement by statement. -/
theorem lift_bind (r : Except ε α) (f : α → Except ε β) :
    (lift (r >>= f) : Prog σ ε β) = lift r >>= fun a => lift (f a) := by
  funext s
  cases r <;> rfl

theorem lift_pure (a : α) : (lift (pure a) : Prog σ ε α) = pure a := rfl

theorem bind_pure_snd (x : Prog σ ε α) (b : β) (s : σ) :
    ((x >>= fun _ => pure b) s).2 = (x s).2 := by
  rw [bind_apply]
  cases x s with
  | mk r s' => cases r <;> rfl

theorem except_bind_eq_ok {x : Except ε α} {f : α → Except ε β} {b : β}
    (h : (x >>= f) = .ok b) : ∃ a, x = .ok a ∧ f a = .ok b := by
  cases x with
  | error e => cases h
  | ok a => exact ⟨a, rfl, h⟩

theorem lift_eq_ok {r : Except ε α} {s s' : σ} {a : α} (h : lift r s = (.ok a, s')) :
    r = .ok a ∧ s' = s := by
  cases h
  exact ⟨rfl, rfl⟩

theorem transaction_eq_ok {t : σ → Except ε (α × σ)} {s s' : σ} {a : α}
    (h : transaction t s = (.ok a, s')) : t s = .ok (a, s') := by
  unfold transaction at h
  cases ht : t s with
  | error e =>
      rw [ht] at h
      cases h
  | ok p =>
      rw [ht] at h
      cases h
      rfl

theorem transaction_eq_error {t : σ → Except ε (α × σ)} {s s' : σ} {e : ε}
    (h : transaction t s = (.error e, s')) : s' = s ∧ t s = .error e := by
  unfold transaction at h
  cases ht : t s with
  | error e' =>
      rw [ht] at h
      cases h
      exact ⟨rfl, rfl⟩
  | ok p =>
      rw [ht] at h
      cases h

theorem except_map_eq_ok {x : Except ε α} {f : α → β} {b : β} (h : x.map f = .ok b) :
    ∃ a, x = .ok a ∧ f a = b := by
  cases x with
  | error e => cases h
  | ok a =>
      cases h
      exact ⟨a, rfl, rfl⟩

theorem raiseIf_of_not {c : Prop} [Decidable c] (h : ¬ c) (e : ε) (s : σ) :
    (raiseIf c e : Prog σ ε Unit) s = (.ok (), s) := if_neg h

theorem raiseIf_cases {c : Prop} [Decidable c] {e : ε} {s t : σ} {r : Except ε Unit}
    (h : (raiseIf c e : Prog σ ε Unit) s = (r, t)) :
    t = s ∧ ((c ∧ r = .error e) ∨ (¬ c ∧ r = .ok ())) := by
  unfold raiseIf at h
  split at h
  · next hc =>
      cases h
      exact ⟨rfl, Or.inl ⟨hc, rfl⟩⟩
  · next hc =>
      cases h
      exact ⟨rfl, Or.inr ⟨hc, rfl⟩⟩

/-! ### Programs that do not see a change of the store -/

/-- `x` neither reads nor overwrites what `g` changes: running it after `g` is running it before. -/
def Commutes (g : σ → σ) (x : Prog σ ε α) : Prop := ∀ s, x (g s) = ((x s).1, g (x s).2)

theorem Commutes.pure {g : σ → σ} (a : α) : Commutes g (pure a : Prog σ ε α) := fun _ => rfl

theorem Commutes.raise {g : σ → σ} (e : ε) : Commutes g (raise e : Prog σ ε α) := fun _ => rfl

theorem Commutes.raiseIf {g : σ → σ} {c : Prop} [Decidable c] {e : ε} :
    Commutes g (raiseIf c e : Prog σ ε Unit) := by
  intro s
  unfold Prog.raiseIf
  split <;> rfl

theorem Commutes.write {g f : σ → σ} (h : ∀ s, f (g s) = g (f s)) :
    Commutes g (write f : Prog σ ε Unit) := by
  intro s
  rw [write_apply, write_apply, h]

theorem Commutes.bind {g : σ → σ} {x : Prog σ ε α} {f : α → Prog σ ε β} (hx : Commutes g x)
    (hf : ∀ a, Commutes g (f a)) : Commutes g (x >>= f) := by
  intro s
  rw [bind_apply, bind_apply, hx s]
  cases hxs : x s with
  | mk res s' =>
      cases res with
      | ok a => exact hf a s'
      | error e => rfl

theorem Commutes.handle {g : σ → σ} {x : Prog σ ε α} {h : ε → Prog σ ε α} (hx : Commutes g x)
    (hh : ∀ e, Commutes g (h e)) : Commutes g (Prog.handle x h) := by
  intro s
  unfold Prog.handle
  rw [hx s]
  cases hxs : x s with
  | mk res s' =>
      cases res with
      | ok a => rfl
      | error e => exact hh e s'

/-! ### Pre- and postconditions -/

/-- From a store with `P`, the program returns `a` in a store with `Q a`, or raises `e` in a store
with `E e`. -/
def Triple (P : σ → Prop) (x : Prog σ ε α) (Q : α → σ → Prop) (E : ε → σ → Prop) : Prop :=
  ∀ s, P s → match x s with
    | (.ok a, s') => Q a s'
    | (.error e, s') => E e s'

variable {P : σ → Prop} {Q : α → σ → Prop} {E : ε → σ → Prop}

theorem Triple.ok {x : Prog σ ε α} (h : Triple P x Q E) {s s' : σ} {a : α} (hs : P s)
    (hx : x s = (.ok a, s')) : Q a s' := by
  have := h s hs
  rwa [hx] at this

theorem Triple.error {x : Prog σ ε α} (h : Triple P x Q E) {s s' : σ} {e : ε} (hs : P s)
    (hx : x s = (.error e, s')) : E e s' := by
  have := h s hs
  rwa [hx] at this

theorem Triple.pure {a : α} (h : ∀ s, P s → Q a s) : Triple P (pure a : Prog σ ε α) Q E :=
  fun s hs => h s hs

theorem Triple.raise {e : ε} (h : ∀ s, P s → E e s) : Triple P (raise e : Prog σ ε α) Q E :=
  fun s hs => h s hs

theorem Triple.raiseIf {c : Prop} [Decidable c] {e : ε} {R : Unit → σ → Prop}
    (hc : c → ∀ s, P s → E e s) (hn : ¬ c → ∀ s, P s → R () s) :
    Triple P (raiseIf c e : Prog σ ε Unit) R E := by
  intro s hs
  unfold Prog.raiseIf
  by_cases h : c
  · simpa [h] using hc h s hs
  · simpa [h] using hn h s hs

theorem Triple.read {f : σ → α} (h : ∀ s, P s → Q (f s) s) :
    Triple P (read f : Prog σ ε α) Q E :=
  fun s hs => h s hs

theorem Triple.write {f : σ → σ} {R : Unit → σ → Prop} (h : ∀ s, P s → R () (f s)) :
    Triple P (write f : Prog σ ε Unit) R E :=
  fun s hs => h s hs

theorem Triple.lift {r : Except ε α} (hok : ∀ a, r = .ok a → ∀ s, P s → Q a s)
    (herr : ∀ e, r = .error e → ∀ s, P s → E e s) : Triple P (lift r : Prog σ ε α) Q E := by
  intro s hs
  cases r with
  | ok a => exact hok a rfl s hs
  | error e => exact herr e rfl s hs

theorem Triple.transaction {t : σ → Except ε (α × σ)}
    (hok : ∀ s a s', P s → t s = .ok (a, s') → Q a s')
    (herr : ∀ s e, P s → t s = .error e → E e s) : Triple P (transaction t) Q E := by
  intro s hs
  unfold Prog.transaction
  cases ht : t s with
  | ok p => exact hok s p.1 p.2 hs ht
  | error e => exact herr s e hs ht

/-- **Sequencing.** -/
theorem Triple.bind {x : Prog σ ε α} {f : α → Prog σ ε β} {R : β → σ → Prop}
    (hx : Triple P x Q E) (hf : ∀ a, Triple (Q a) (f a) R E) : Triple P (x >>= f) R E := by
  intro s hs
  have h := hx s hs
  rw [bind_apply]
  cases hxs : x s with
  | mk res s' =>
      rw [hxs] at h
      cases res with
      | ok a => exact hf a s' h
      | error e => exact h

/-- The handler starts from whatever the raising program left. -/
theorem Triple.handle {x : Prog σ ε α} {h : ε → Prog σ ε α} {E' : ε → σ → Prop}
    (hx : Triple P x Q E) (hh : ∀ e, Triple (E e) (h e) Q E') : Triple P (Prog.handle x h) Q E' := by
  intro s hs
  have hr := hx s hs
  unfold Prog.handle
  cases hxs : x s with
  | mk res s' =>
      rw [hxs] at hr
      cases res with
      | ok a => exact hr
      | error e => exact hh e s' hr

theorem Triple.weaken {P' : σ → Prop} {Q' : α → σ → Prop} {E' : ε → σ → Prop} {x : Prog σ ε α}
    (h : Triple P x Q E) (hP : ∀ s, P' s → P s) (hQ : ∀ a s, Q a s → Q' a s)
    (hE : ∀ e s, E e s → E' e s) : Triple P' x Q' E' := by
  intro s hs
  have hr := h s (hP s hs)
  cases hxs : x s with
  | mk res s' =>
      rw [hxs] at hr
      cases res with
      | ok a => exact hQ a s' hr
      | error e => exact hE e s' hr

/-- Two facts about one program. -/
theorem Triple.and {P' : σ → Prop} {Q' : α → σ → Prop} {E' : ε → σ → Prop} {x : Prog σ ε α}
    (h : Triple P x Q E) (h' : Triple P' x Q' E') :
    Triple (fun s => P s ∧ P' s) x (fun a s => Q a s ∧ Q' a s) (fun e s => E e s ∧ E' e s) := by
  intro s hs
  have hr := h s hs.1
  have hr' := h' s hs.2
  cases hxs : x s with
  | mk res s' =>
      rw [hxs] at hr hr'
      cases res with
      | ok a => exact ⟨hr, hr'⟩
      | error e => exact ⟨hr, hr'⟩

/-- A program *keeps* `I` when it never leaves `I`, whether it returns or raises. -/
abbrev Keeps (I : σ → Prop) (x : Prog σ ε α) : Prop := Triple I x (fun _ => I) (fun _ => I)

/-- A first statement that keeps the precondition. -/
theorem Triple.keeps_bind {x : Prog σ ε α} {f : α → Prog σ ε β} {R : β → σ → Prop}
    (hx : Keeps P x) (hE : ∀ e s, P s → E e s) (hf : ∀ a, Triple P (f a) R E) :
    Triple P (x >>= f) R E :=
  Triple.bind (Triple.weaken hx (fun _ h => h) (fun _ _ h => h) hE) hf

section Keeps

variable {I : σ → Prop}

theorem Keeps.pure (a : α) : Keeps I (pure a : Prog σ ε α) := Triple.pure (fun _ h => h)

theorem Keeps.raise (e : ε) : Keeps I (raise e : Prog σ ε α) := Triple.raise (fun _ h => h)

theorem Keeps.raiseIf {c : Prop} [Decidable c] {e : ε} :
    Keeps I (raiseIf c e : Prog σ ε Unit) := Triple.raiseIf (fun _ _ h => h) (fun _ _ h => h)

theorem Keeps.read (f : σ → α) : Keeps I (read f : Prog σ ε α) := Triple.read (fun _ h => h)

theorem Keeps.lift (r : Except ε α) : Keeps I (lift r : Prog σ ε α) :=
  Triple.lift (fun _ _ _ h => h) (fun _ _ _ h => h)

theorem Keeps.write {f : σ → σ} (h : ∀ s, I s → I (f s)) : Keeps I (write f : Prog σ ε Unit) :=
  Triple.write h

theorem Keeps.transaction {t : σ → Except ε (α × σ)}
    (h : ∀ s a s', I s → t s = .ok (a, s') → I s') : Keeps I (transaction t) :=
  Triple.transaction h (fun _ _ hs _ => hs)

theorem Keeps.bind {x : Prog σ ε α} {f : α → Prog σ ε β} (hx : Keeps I x)
    (hf : ∀ a, Keeps I (f a)) : Keeps I (x >>= f) := Triple.bind hx hf

theorem Keeps.handle {x : Prog σ ε α} {h : ε → Prog σ ε α} (hx : Keeps I x)
    (hh : ∀ e, Keeps I (h e)) : Keeps I (Prog.handle x h) := Triple.handle hx hh

end Keeps

theorem Keeps.of_snd {I : σ → Prop} {x : Prog σ ε α} (h : ∀ s, I s → I (x s).2) : Keeps I x := by
  intro s hs
  have hr := h s hs
  cases hxs : x s with
  | mk res s' =>
      rw [hxs] at hr
      cases res with
      | ok a => exact hr
      | error e => exact hr

/-- What holds however the program ends. -/
theorem Triple.snd {C : σ → Prop} {x : Prog σ ε α} (h : Triple P x (fun _ => C) (fun _ => C)) {s : σ}
    (hs : P s) : C (x s).2 := by
  have hr := h s hs
  cases hxs : x s with
  | mk res s' =>
      rw [hxs] at hr
      cases res with
      | ok a => exact hr
      | error e => exact hr

theorem Keeps.snd {I : σ → Prop} {x : Prog σ ε α} (h : Keeps I x) {s : σ} (hs : I s) :
    I (x s).2 := Triple.snd h hs

theorem Keeps.of_eq {I : σ → Prop} {x : Prog σ ε α} (h : Keeps I x) {s t : σ} {r : Except ε α}
    (hx : x s = (r, t)) (hs : I s) : I t := by
  have ht := h.snd hs
  rwa [hx] at ht

end Prog

end EnergyAgent.Lib
