import EnergyAgent.Lib.Process

/-!
# One request alone

`Proc.Runs` is the big-step semantics of a program of store calls that nothing interrupts: from a
store it makes some calls and ends with a result in another store. The rules below take a run
apart along the program; `Proc.solo` computes one.
-/

namespace EnergyAgent.Lib

/-- A call with its answer. -/
abbrev Backend.Call (B : Backend) := (op : B.Op) × B.Ans op

namespace Proc

variable {B : Backend} {ε α β : Type} {ok : B.Input → Prop}

/-- Alone from store `s`, with inputs that are `ok`, the program makes `calls` and ends with the
result `r` in store `t`. -/
inductive Runs (ok : B.Input → Prop) :
    Proc B ε α → B.Store → List B.Call → Except ε α → B.Store → Prop
  | ret {a : α} {s : B.Store} : Runs ok (.ret a) s [] (.ok a) s
  | raise {e : ε} {s : B.Store} : Runs ok (.raise e) s [] (.error e) s
  | call {op : B.Op} {k : B.Ans op → Proc B ε α} {s t u : B.Store} {x : B.Input} {a : B.Ans op}
      {calls : List B.Call} {r : Except ε α} (hok : ok x) (hexec : B.exec op x s = some (a, t))
      (hrest : Runs ok (k a) t calls r u) : Runs ok (.call op k) s (⟨op, a⟩ :: calls) r u

/-- Among others that may change the store between its calls, the program makes `calls` and ends
with the result `r`. -/
inductive Answered : Proc B ε α → List B.Call → Except ε α → Prop
  | ret {a : α} : Answered (.ret a) [] (.ok a)
  | raise {e : ε} : Answered (.raise e) [] (.error e)
  | call {op : B.Op} {k : B.Ans op → Proc B ε α} {a : B.Ans op} {calls : List B.Call}
      {r : Except ε α} (hans : B.Answers op a) (hrest : Answered (k a) calls r) :
      Answered (.call op k) (⟨op, a⟩ :: calls) r

/-- Run a program on given inputs. -/
def solo : Proc B ε α → List B.Input → B.Store → Option (List B.Call × Except ε α × B.Store)
  | .ret a, _, s => some ([], .ok a, s)
  | .raise e, _, s => some ([], .error e, s)
  | .call _ _, [], _ => none
  | .call op k, x :: xs, s =>
      (B.exec op x s).bind fun (a, t) =>
        ((k a).solo xs t).map fun (calls, rest) => (⟨op, a⟩ :: calls, rest)

theorem runs_of_solo {p : Proc B ε α} {xs : List B.Input} (hok : ∀ x ∈ xs, ok x) {s t : B.Store}
    {calls : List B.Call} {r : Except ε α} (h : p.solo xs s = some (calls, r, t)) :
    p.Runs ok s calls r t := by
  induction p generalizing xs s calls with
  | ret a =>
      cases h
      exact .ret
  | raise e =>
      cases h
      exact .raise
  | call op k ih =>
      cases xs with
      | nil => cases h
      | cons x xs =>
          obtain ⟨⟨a, u⟩, hexec, hrest⟩ := Option.bind_eq_some_iff.mp h
          obtain ⟨⟨calls', rest⟩, hsolo, heq⟩ := Option.map_eq_some_iff.mp hrest
          cases heq
          exact .call (hok x (List.mem_cons_self ..)) hexec
            (ih a (fun y hy => hok y (List.mem_cons_of_mem _ hy)) hsolo)

/-- What every allowed call keeps, a run of allowed calls keeps. -/
theorem Runs.preserves {P : B.Store → Prop} {allowed : B.Op → Prop} {p : Proc B ε α}
    {s t : B.Store} {calls : List B.Call} {r : Except ε α} (h : p.Runs ok s calls r t)
    (huses : p.Uses allowed)
    (hop : ∀ op x s a t, allowed op → B.exec op x s = some (a, t) → P s → P t) (hs : P s) :
    P t := by
  induction h with
  | ret | raise => exact hs
  | call _ hexec _ ih =>
      exact ih (huses.2 _ ⟨_, _, _, hexec⟩) (hop _ _ _ _ _ huses.1 hexec hs)

/-- A run makes only allowed calls. -/
theorem Runs.calls {allowed : B.Op → Prop} {p : Proc B ε α} {s t : B.Store} {calls : List B.Call}
    {r : Except ε α} (h : p.Runs ok s calls r t) (huses : p.Uses allowed) :
    ∀ c ∈ calls, allowed c.1 := by
  induction h with
  | ret | raise => simp
  | call _ hexec _ ih =>
      intro c hc
      rcases List.mem_cons.mp hc with rfl | hrest
      · exact huses.1
      · exact ih (huses.2 _ ⟨_, _, _, hexec⟩) c hrest

/-- What a run returns is as the program promises. -/
theorem Runs.returns {post : α → Prop} {p : Proc B ε α} {s t : B.Store} {calls : List B.Call}
    {a : α} (h : p.Runs ok s calls (.ok a) t) (hpost : p.Returns post) : post a := by
  generalize hr : Except.ok a = r at h
  induction h with
  | ret =>
      cases hr
      exact hpost
  | raise => cases hr
  | call _ hexec _ ih => exact ih (hpost _ ⟨_, _, _, hexec⟩) hr

/-- What a run raises is as the program promises. -/
theorem Runs.raises {post : ε → Prop} {p : Proc B ε α} {s t : B.Store} {calls : List B.Call}
    {e : ε} (h : p.Runs ok s calls (.error e) t) (hpost : p.Raises post) : post e := by
  generalize hr : Except.error e = r at h
  induction h with
  | ret => cases hr
  | raise =>
      cases hr
      exact hpost
  | call _ hexec _ ih => exact ih (hpost _ ⟨_, _, _, hexec⟩) hr

/-! ## Calls that always answer -/

section trace

variable (answer : (op : B.Op) → B.Store → B.Ans op × B.Store)

/-- Run a program whose calls are answered by `answer`: the calls it makes, with their answers, the
result and the store it leaves. -/
def trace : Proc B ε α → B.Store → List B.Call × Except ε α × B.Store
  | .ret a, s => ([], .ok a, s)
  | .raise e, s => ([], .error e, s)
  | .call op k, s =>
      let (a, t) := answer op s
      let (calls, rest) := (k a).trace t
      (⟨op, a⟩ :: calls, rest)

variable {answer} {s t u : B.Store} {calls calls' : List B.Call}

/-- A program goes on where its first part returned. -/
theorem trace_bind_ok {x : Proc B ε α} {f : α → Proc B ε β} {a : α} {r : Except ε β}
    (hx : x.trace answer s = (calls, .ok a, t)) (hf : (f a).trace answer t = (calls', r, u)) :
    (x >>= f).trace answer s = (calls ++ calls', r, u) := by
  induction x generalizing s calls with
  | ret b =>
      cases hx
      exact hf
  | raise e => cases hx
  | call op k ih =>
      cases hrest : (k (answer op s).1).trace answer (answer op s).2 with
      | mk rest out =>
          simp only [trace, hrest] at hx
          cases hx
          simp only [call_bind, trace, ih _ hrest]
          rfl

/-- It stops where its first part raised. -/
theorem trace_bind_error {x : Proc B ε α} {f : α → Proc B ε β} {e : ε}
    (hx : x.trace answer s = (calls, .error e, t)) :
    (x >>= f).trace answer s = (calls, .error e, t) := by
  induction x generalizing s calls with
  | ret b => cases hx
  | raise e' =>
      cases hx
      rfl
  | call op k ih =>
      cases hrest : (k (answer op s).1).trace answer (answer op s).2 with
      | mk rest out =>
          simp only [trace, hrest] at hx
          cases hx
          simp only [call_bind, trace, ih _ hrest]

end trace

/-! ## Among other requests -/

/-- A request alone is one among others that do nothing. -/
theorem Runs.answered {p : Proc B ε α} {s t : B.Store} {calls : List B.Call} {r : Except ε α}
    (h : p.Runs ok s calls r t) : p.Answered calls r := by
  induction h with
  | ret => exact .ret
  | raise => exact .raise
  | call _ hexec _ ih => exact .call ⟨_, _, _, hexec⟩ ih

theorem Answered.uses {allowed : B.Op → Prop} {p : Proc B ε α} {calls : List B.Call}
    {r : Except ε α} (h : p.Answered calls r) (huses : p.Uses allowed) :
    ∀ c ∈ calls, allowed c.1 := by
  induction h with
  | ret | raise => simp
  | call hans _ ih =>
      intro c hc
      rcases List.mem_cons.mp hc with rfl | hrest
      · exact huses.1
      · exact ih (huses.2 _ hans) c hrest

theorem Answered.returns {post : α → Prop} {p : Proc B ε α} {calls : List B.Call} {a : α}
    (h : p.Answered calls (.ok a)) (hpost : p.Returns post) : post a := by
  generalize hr : Except.ok a = r at h
  induction h with
  | ret =>
      cases hr
      exact hpost
  | raise => cases hr
  | call hans _ ih => exact ih (hpost _ hans) hr

theorem Answered.bind_map {p : Proc B ε α} {calls : List B.Call} {a : α}
    (h : p.Answered calls (.ok a)) (f : α → β) :
    (p >>= fun a => .ret (f a)).Answered calls (.ok (f a)) := by
  generalize hr : Except.ok a = r at h
  induction h with
  | ret =>
      cases hr
      exact .ret
  | raise => cases hr
  | call hans _ ih => exact .call hans (ih hr)

theorem answered_call {op : B.Op} {k : B.Ans op → Proc B ε α} {calls : List B.Call}
    {r : Except ε α} (h : (Proc.call op k).Answered calls r) :
    ∃ a rest, (k a).Answered rest r ∧ calls = ⟨op, a⟩ :: rest := by
  cases h with
  | call _ hrest => exact ⟨_, _, hrest, rfl⟩

theorem answered_ret {a : α} {calls : List B.Call} {r : Except ε α}
    (h : (Proc.ret a).Answered calls r) : calls = [] ∧ r = .ok a := by
  cases h
  exact ⟨rfl, rfl⟩

theorem answered_raise {e : ε} {calls : List B.Call} {r : Except ε α}
    (h : (Proc.raise e).Answered calls r) : r = .error e := by
  cases h
  rfl

/-- A program that goes on makes the calls of both its parts. -/
theorem Answered.bind_ok {x : Proc B ε α} {f : α → Proc B ε β} {calls : List B.Call} {b : β}
    (h : (x >>= f).Answered calls (.ok b)) : ∃ a before after, x.Answered before (.ok a) ∧
      (f a).Answered after (.ok b) ∧ calls = before ++ after := by
  induction x generalizing calls with
  | ret a => exact ⟨a, [], calls, .ret, h, rfl⟩
  | raise e => cases answered_raise h
  | call op k ih =>
      cases h with
      | @call _ _ a' _ _ hans hrest =>
          obtain ⟨a, before, after, hx, hf, rfl⟩ := ih _ hrest
          exact ⟨a, _ :: before, after, .call hans hx, hf, rfl⟩

section inversion

variable {s t : B.Store} {calls : List B.Call}

theorem runs_ret {a : α} {r : Except ε α} (h : (Proc.ret a).Runs ok s calls r t) :
    calls = [] ∧ r = .ok a ∧ t = s := by
  cases h
  exact ⟨rfl, rfl, rfl⟩

theorem runs_raise {e : ε} {r : Except ε α} (h : (Proc.raise e).Runs ok s calls r t) :
    calls = [] ∧ r = .error e ∧ t = s := by
  cases h
  exact ⟨rfl, rfl, rfl⟩

/-- A call, and the run of what follows it. -/
theorem runs_call {op : B.Op} {k : B.Ans op → Proc B ε α} {r : Except ε α}
    (h : (Proc.call op k).Runs ok s calls r t) :
    ∃ x a u rest, ok x ∧ B.exec op x s = some (a, u) ∧ (k a).Runs ok u rest r t ∧
      calls = ⟨op, a⟩ :: rest := by
  cases h with
  | call hok hexec hrest => exact ⟨_, _, _, _, hok, hexec, hrest, rfl⟩

/-- A sequence runs to the end of its first part, or stops there. -/
theorem runs_bind {x : Proc B ε α} {f : α → Proc B ε β} {r : Except ε β}
    (h : (x >>= f).Runs ok s calls r t) :
    (∃ a before u after, x.Runs ok s before (.ok a) u ∧ (f a).Runs ok u after r t ∧
      calls = before ++ after) ∨ ∃ e, x.Runs ok s calls (.error e) t ∧ r = .error e := by
  induction x generalizing s calls with
  | ret a => exact Or.inl ⟨a, [], s, calls, .ret, h, rfl⟩
  | raise e =>
      obtain ⟨rfl, rfl, rfl⟩ := runs_raise h
      exact Or.inr ⟨e, .raise, rfl⟩
  | call op k ih =>
      obtain ⟨y, a, u, rest, hok, hexec, hrest, rfl⟩ := runs_call h
      rcases ih a hrest with ⟨b, before, v, after, hx, hf, rfl⟩ | ⟨e, hx, rfl⟩
      · exact Or.inl ⟨b, ⟨op, a⟩ :: before, v, after, .call hok hexec hx, hf, rfl⟩
      · exact Or.inr ⟨e, .call hok hexec hx, rfl⟩

/-- A program whose result is only rewritten. -/
theorem runs_map {x : Proc B ε α} {f : α → β} {r : Except ε β}
    (h : (x >>= fun a => Proc.ret (f a)).Runs ok s calls r t) :
    ∃ r', x.Runs ok s calls r' t ∧ r = r'.map f := by
  rcases runs_bind h with ⟨a, before, u, after, hx, hret, rfl⟩ | ⟨e, hx, rfl⟩
  · obtain ⟨rfl, rfl, rfl⟩ := runs_ret hret
    exact ⟨.ok a, by rwa [List.append_nil], rfl⟩
  · exact ⟨.error e, hx, rfl⟩

/-- A handled program returns, or its handler runs on what it raised. -/
theorem runs_handle {x : Proc B ε α} {handler : ε → Proc B ε α} {r : Except ε α}
    (h : (x.handle handler).Runs ok s calls r t) :
    (∃ a, x.Runs ok s calls (.ok a) t ∧ r = .ok a) ∨
      ∃ e before u after, x.Runs ok s before (.error e) u ∧ (handler e).Runs ok u after r t ∧
        calls = before ++ after := by
  induction x generalizing s calls with
  | ret a =>
      obtain ⟨rfl, rfl, rfl⟩ := runs_ret h
      exact Or.inl ⟨a, .ret, rfl⟩
  | raise e => exact Or.inr ⟨e, [], s, calls, .raise, h, rfl⟩
  | call op k ih =>
      obtain ⟨y, a, u, rest, hok, hexec, hrest, rfl⟩ := runs_call h
      rcases ih a hrest with ⟨b, hx, rfl⟩ | ⟨e, before, v, after, hx, hh, rfl⟩
      · exact Or.inl ⟨b, .call hok hexec hx, rfl⟩
      · exact Or.inr ⟨e, ⟨op, a⟩ :: before, v, after, .call hok hexec hx, hh, rfl⟩

/-- A check passes, or raises. -/
theorem runs_raiseIf {c : Prop} [Decidable c] {e : ε} {r : Except ε Unit}
    (h : (raiseIf c e : Proc B ε Unit).Runs ok s calls r t) :
    calls = [] ∧ t = s ∧ ((c ∧ r = .error e) ∨ (¬ c ∧ r = .ok ())) := by
  unfold raiseIf at h
  split at h
  · next hc =>
      obtain ⟨hcalls, hr, ht⟩ := runs_raise h
      exact ⟨hcalls, ht, Or.inl ⟨hc, hr⟩⟩
  · next hc =>
      obtain ⟨hcalls, hr, ht⟩ := runs_ret h
      exact ⟨hcalls, ht, Or.inr ⟨hc, hr⟩⟩

/-- The same for a check with something after it. -/
theorem runs_raiseIf_bind {c : Prop} [Decidable c] {e : ε} {f : Unit → Proc B ε α}
    {r : Except ε α} (h : (raiseIf c e >>= f).Runs ok s calls r t) :
    (c ∧ calls = [] ∧ r = .error e ∧ t = s) ∨ (¬ c ∧ (f ()).Runs ok s calls r t) := by
  unfold raiseIf at h
  split at h
  · next hc => exact Or.inl ⟨hc, runs_raise h⟩
  · next hc => exact Or.inr ⟨hc, h⟩

end inversion

end Proc

end EnergyAgent.Lib
