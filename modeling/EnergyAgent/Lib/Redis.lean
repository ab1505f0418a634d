/-!
# A counter in Redis

One key with an integer and a time to live, under the commands that a script may give it. The key is
gone once its time is over; a command that needs a number finds zero then. Times are milliseconds.
-/

namespace EnergyAgent.Lib.Redis

structure Entry where
  value : Int
  expiresAt : Option Nat
  deriving DecidableEq, Repr

/-- What is stored under the key. -/
abbrev Key := Option Entry

namespace Key

/-- The key at a time: gone when it has expired. -/
def live (key : Key) (now : Nat) : Key := key.filter fun e => e.expiresAt.all (now ≤ ·)

/-- `INCR` and `DECR` -/
def incrBy (key : Key) (n : Int) : Int × Key :=
  match key with
  | none => (n, some ⟨n, none⟩)
  | some e => (e.value + n, some { e with value := e.value + n })

/-- `EXPIRE` -/
def expire (key : Key) (now ttl : Nat) : Key := key.map fun e => { e with expiresAt := some (now + ttl) }

/-- `EXPIRE` with a time in seconds; a time that is over at once deletes the key. -/
def expireSeconds (key : Key) (now seconds : Nat) : Key :=
  if seconds = 0 then none else key.expire now (seconds * 1000)

/-- `TTL`: the seconds that are left, rounded; `-1` for a key that stays, `-2` for none. -/
def ttl (key : Key) (now : Nat) : Int :=
  match key with
  | none => -2
  | some e => e.expiresAt.elim (-1) fun t => ((t - now + 500) / 1000 : Nat)

/-- The number that a command finds. -/
def count (key : Key) (now : Nat) : Int := (key.live now).elim 0 (·.value)

theorem live_eq_self {e : Entry} {now : Nat} (h : ∀ t ∈ e.expiresAt, now ≤ t) :
    live (some e) now = some e := by
  obtain ⟨value, expiresAt⟩ := e
  cases expiresAt with
  | none => rfl
  | some t => exact if_pos (decide_eq_true (h t rfl))

/-- A key whose time is over is gone. -/
theorem live_eq_none {e : Entry} {now t : Nat} (ht : e.expiresAt = some t) (h : t < now) :
    live (some e) now = none := by
  obtain ⟨value, expiresAt⟩ := e
  cases ht
  exact if_neg (by simpa using h)

theorem live_cases (key : Key) (now : Nat) : live key now = none ∨ live key now = key := by
  cases key with
  | none => exact Or.inl rfl
  | some e =>
      simp only [live, Option.filter]
      split
      · exact Or.inr rfl
      · exact Or.inl rfl

theorem count_cases (key : Key) (now : Nat) :
    count key now = 0 ∨ ∃ e, key = some e ∧ count key now = e.value := by
  unfold count
  rcases live_cases key now with hgone | hsame
  · left
    rw [hgone]
    rfl
  · rw [hsame]
    cases key with
    | none => exact Or.inl rfl
    | some e => exact Or.inr ⟨e, rfl, rfl⟩

theorem incrBy_live (key : Key) (now : Nat) (n : Int) : (key.live now).incrBy n =
    (key.count now + n, some ⟨key.count now + n, (key.live now).bind (·.expiresAt)⟩) := by
  unfold count
  cases key.live now with
  | none => simp [incrBy]
  | some e => rfl

end Key

end EnergyAgent.Lib.Redis
