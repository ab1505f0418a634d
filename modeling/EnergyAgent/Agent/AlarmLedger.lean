import Mathlib.Data.List.Basic

/-!
# The ledger of one alarm

What deduplication is for, without the tables: the calls for one alarm look it up, and each lookup
either counts the alarm for the session that has it or misses, and then the call registers a
session of its own. In a `Ledger` a lookup that has missed is followed by its registration before
anything else happens. `expired_before_miss` is what this buys: of two lookups that missed, the
session of the first one has failed, or its window was over when the second one came.
-/

namespace EnergyAgent.Agent

/-- What a call does to an alarm. -/
inductive Touch
  | missed (call time : Nat)
  | counted (session : String) (time : Nat)
  | registered (call : Nat) (session : String) (time : Nat)
  deriving DecidableEq, Repr

/-- The time at which the alarm is counted for the session. -/
def Touch.countsFor (session : String) : Touch → Option Nat
  | .missed _ _ => none
  | .counted s time => if s = session then some time else none
  | .registered _ s time => if s = session then some time else none

theorem Touch.countsFor_counted {s session : String} {time time' : Nat} :
    (Touch.counted s time).countsFor session = some time' ↔ s = session ∧ time = time' := by
  simp [countsFor]

theorem Touch.countsFor_registered {s session : String} {i time time' : Nat} :
    (Touch.registered i s time).countsFor session = some time' ↔ s = session ∧ time = time' := by
  simp [countsFor]

/-- Who has the alarm, until when, and how often it has come. -/
structure LedgerRow where
  session : String
  expiresAt : Nat
  count : Nat
  deriving DecidableEq, Repr

/-- The histories of one alarm, with the time of the last entry, the call that has missed and not
registered yet, and the row. A lookup misses only where the row has expired or is that of a failed
session. -/
inductive Ledger (window : Nat) (failed : String → Prop) :
    List Touch → Nat → Option Nat → Option LedgerRow → Prop
  | nil : Ledger window failed [] 0 none none
  | miss {l : List Touch} {clock time i : Nat} {row : Option LedgerRow}
      (h : Ledger window failed l clock none row) (hclock : clock ≤ time)
      (hfresh : ∀ time', .missed i time' ∉ l)
      (hclosed : ∀ r ∈ row, failed r.session ∨ r.expiresAt ≤ time) :
      Ledger window failed (l ++ [.missed i time]) time (some i) row
  | count {l : List Touch} {clock time : Nat} {r : LedgerRow}
      (h : Ledger window failed l clock none (some r)) (hclock : clock ≤ time) :
      Ledger window failed (l ++ [.counted r.session time]) time none
        (some ⟨r.session, time + window, r.count + 1⟩)
  | register {l : List Touch} {clock time i : Nat} {row : Option LedgerRow} {session : String}
      (h : Ledger window failed l clock (some i) row) (hclock : clock ≤ time)
      (hfresh : ∀ j time', .registered j session time' ∉ l) :
      Ledger window failed (l ++ [.registered i session time]) time none
        (some ⟨session, time + window, 1⟩)

/-- Two entries, one before the other. -/
theorem pair_sublist_concat {α : Type} {a b c : α} {l : List α}
    (h : List.Sublist [a, b] (l ++ [c])) : List.Sublist [a, b] l ∨ (a ∈ l ∧ b = c) := by
  obtain ⟨l₁, l₂, heq, h₁, h₂⟩ := List.sublist_append_iff.mp h
  match l₁, l₂, heq with
  | [], _, rfl => simpa using h₂.length_le
  | [_], _, rfl => exact Or.inr ⟨by simpa using h₁, by simpa using h₂⟩
  | [_, _], _, rfl => exact Or.inl h₁

namespace Ledger

variable {window clock : Nat} {failed : String → Prop} {l : List Touch} {openCall : Option Nat}
  {row : Option LedgerRow}

theorem mono {failed' : String → Prop} (h : Ledger window failed l clock openCall row)
    (himp : ∀ s, failed s → failed' s) : Ledger window failed' l clock openCall row := by
  induction h with
  | nil => exact .nil
  | miss _ hclock hfresh hclosed ih =>
      exact .miss ih hclock hfresh fun r hr => (hclosed r hr).imp_left (himp _)
  | count _ hclock ih => exact .count ih hclock
  | register _ hclock hfresh ih => exact .register ih hclock hfresh

/-- Time does not go backwards. -/
theorem time_le (h : Ledger window failed l clock openCall row) {session : String} {time : Nat} :
    ∀ e ∈ l, e.countsFor session = some time → time ≤ clock := by
  induction h with
  | nil => simp
  | miss _ hclock _ _ ih =>
      intro e he hcounts
      rcases List.mem_append.mp he with hold | hlast
      · exact Nat.le_trans (ih e hold hcounts) hclock
      · rw [List.mem_singleton.mp hlast] at hcounts
        cases hcounts
  | count _ hclock ih =>
      intro e he hcounts
      rcases List.mem_append.mp he with hold | hlast
      · exact Nat.le_trans (ih e hold hcounts) hclock
      · rw [List.mem_singleton.mp hlast, Touch.countsFor_counted] at hcounts
        exact Nat.le_of_eq hcounts.2.symm
  | register _ hclock _ ih =>
      intro e he hcounts
      rcases List.mem_append.mp he with hold | hlast
      · exact Nat.le_trans (ih e hold hcounts) hclock
      · rw [List.mem_singleton.mp hlast, Touch.countsFor_registered] at hcounts
        exact Nat.le_of_eq hcounts.2.symm

/-- A lookup that missed has registered, or is the one that is open. -/
theorem registered_or_open (h : Ledger window failed l clock openCall row) {i time : Nat}
    (hmiss : .missed i time ∈ l) :
    (∃ session time', .registered i session time' ∈ l) ∨ openCall = some i := by
  induction h with
  | nil => cases hmiss
  | miss _ _ _ _ ih =>
      rcases List.mem_append.mp hmiss with hold | hlast
      · obtain ⟨s, t, hreg⟩ := (ih hold).resolve_right nofun
        exact Or.inl ⟨s, t, List.mem_append_left _ hreg⟩
      · cases List.mem_singleton.mp hlast
        exact Or.inr rfl
  | count _ _ ih =>
      rcases List.mem_append.mp hmiss with hold | hlast
      · obtain ⟨s, t, hreg⟩ := (ih hold).resolve_right nofun
        exact Or.inl ⟨s, t, List.mem_append_left _ hreg⟩
      · cases List.mem_singleton.mp hlast
  | register _ _ _ ih =>
      rcases List.mem_append.mp hmiss with hold | hlast
      · rcases ih hold with ⟨s, t, hreg⟩ | hopen
        · exact Or.inl ⟨s, t, List.mem_append_left _ hreg⟩
        · cases hopen
          exact Or.inl ⟨_, _, List.mem_append_right _ (List.mem_singleton_self _)⟩
      · cases List.mem_singleton.mp hlast

/-- Who has registered, or is yet to, has missed. -/
theorem missed_of_registered (h : Ledger window failed l clock openCall row) {i : Nat}
    (hi : openCall = some i ∨ ∃ session time, .registered i session time ∈ l) :
    ∃ time, .missed i time ∈ l := by
  induction h with
  | nil => simp at hi
  | @miss l clock time j row _ _ _ _ ih =>
      rcases hi with hopen | ⟨s, t, hreg⟩
      · cases hopen
        exact ⟨time, List.mem_append_right _ (List.mem_singleton_self _)⟩
      · obtain ⟨t', hmiss⟩ := ih (Or.inr ⟨s, t, by simpa using hreg⟩)
        exact ⟨t', List.mem_append_left _ hmiss⟩
  | count _ _ ih =>
      obtain ⟨s, t, hreg⟩ := hi.resolve_left nofun
      obtain ⟨t', hmiss⟩ := ih (Or.inr ⟨s, t, by simpa using hreg⟩)
      exact ⟨t', List.mem_append_left _ hmiss⟩
  | @register l clock time j row session _ _ _ ih =>
      obtain ⟨s, t, hreg⟩ := hi.resolve_left nofun
      have hbefore : some j = some i ∨ ∃ s t, Touch.registered i s t ∈ l := by
        rcases List.mem_append.mp hreg with hold | hlast
        · exact Or.inr ⟨s, t, hold⟩
        · cases List.mem_singleton.mp hlast
          exact Or.inl rfl
      obtain ⟨t', hmiss⟩ := ih hbefore
      exact ⟨t', List.mem_append_left _ hmiss⟩

/-- The open lookup has not registered. -/
theorem open_not_registered (h : Ledger window failed l clock openCall row) {i : Nat}
    (hopen : openCall = some i) (session : String) (time : Nat) :
    .registered i session time ∉ l := by
  cases h with
  | nil | count | register => cases hopen
  | miss h _ hfresh _ =>
      cases hopen
      intro hreg
      obtain ⟨t, hmiss⟩ := h.missed_of_registered (Or.inr ⟨session, time, by simpa using hreg⟩)
      exact hfresh t hmiss

/-- What is counted is counted for a session that has registered. -/
theorem registered_of_counts (h : Ledger window failed l clock openCall row) {session : String} :
    (∀ r ∈ row, r.session = session → ∃ i time, .registered i session time ∈ l) ∧
    ∀ e ∈ l, (e.countsFor session).isSome → ∃ i time, .registered i session time ∈ l := by
  induction h with
  | nil => simp
  | miss _ _ _ _ ih =>
      refine ⟨fun r hr hs => ?_, fun e he hcounts => ?_⟩
      · obtain ⟨i, t, hreg⟩ := ih.1 r hr hs
        exact ⟨i, t, List.mem_append_left _ hreg⟩
      · rcases List.mem_append.mp he with hold | hlast
        · obtain ⟨i, t, hreg⟩ := ih.2 e hold hcounts
          exact ⟨i, t, List.mem_append_left _ hreg⟩
        · rw [List.mem_singleton.mp hlast] at hcounts
          cases hcounts
  | @count l clock time r _ _ ih =>
      have hrow : r.session = session → ∃ i time, .registered i session time ∈ l :=
        ih.1 r rfl
      refine ⟨fun r' hr hs => ?_, fun e he hcounts => ?_⟩
      · cases hr
        obtain ⟨i, t, hreg⟩ := hrow hs
        exact ⟨i, t, List.mem_append_left _ hreg⟩
      · rcases List.mem_append.mp he with hold | hlast
        · obtain ⟨i, t, hreg⟩ := ih.2 e hold hcounts
          exact ⟨i, t, List.mem_append_left _ hreg⟩
        · obtain ⟨t, hsome⟩ := Option.isSome_iff_exists.mp hcounts
          rw [List.mem_singleton.mp hlast, Touch.countsFor_counted] at hsome
          obtain ⟨i, t, hreg⟩ := hrow hsome.1
          exact ⟨i, t, List.mem_append_left _ hreg⟩
  | @register l clock time i row s _ _ _ ih =>
      have hnew : s = session →
          ∃ i' t, Touch.registered i' session t ∈ l ++ [Touch.registered i s time] := by
        rintro rfl
        exact ⟨i, time, List.mem_append_right _ (List.mem_singleton_self _)⟩
      refine ⟨fun r hr hs => ?_, fun e he hcounts => ?_⟩
      · cases hr
        exact hnew hs
      · rcases List.mem_append.mp he with hold | hlast
        · obtain ⟨i', t, hreg⟩ := ih.2 e hold hcounts
          exact ⟨i', t, List.mem_append_left _ hreg⟩
        · obtain ⟨t, hsome⟩ := Option.isSome_iff_exists.mp hcounts
          rw [List.mem_singleton.mp hlast, Touch.countsFor_registered] at hsome
          exact hnew hsome.1

/-- **The row counts right.** -/
theorem row_count (h : Ledger window failed l clock openCall row) :
    ∀ r ∈ row, r.count = l.countP fun e => (e.countsFor r.session).isSome := by
  induction h with
  | nil => simp
  | miss _ _ _ _ ih =>
      intro r hr
      rw [List.countP_append, ih r hr]
      simp [Touch.countsFor]
  | count _ _ ih =>
      intro r hr
      cases hr
      rw [List.countP_append, ih _ rfl]
      simp [Touch.countsFor]
  | @register l clock time i row s h _ hfresh _ =>
      intro r hr
      cases hr
      -- nothing has been counted for a session that has not registered
      have hzero : (l.countP fun e => (e.countsFor s).isSome) = 0 := by
        refine List.countP_eq_zero.mpr fun e he hcounts => ?_
        obtain ⟨j, t, hreg⟩ := h.registered_of_counts.2 e he hcounts
        exact hfresh j t hreg
      rw [List.countP_append, hzero]
      simp [Touch.countsFor]

/-- The window of the row reaches past everything that was counted for it. -/
theorem row_expiry (h : Ledger window failed l clock openCall row) :
    ∀ r ∈ row, ∀ e ∈ l, ∀ time, e.countsFor r.session = some time →
      time + window ≤ r.expiresAt := by
  induction h with
  | nil => simp
  | miss _ _ _ _ ih =>
      intro r hr e he time hcounts
      rcases List.mem_append.mp he with hold | hlast
      · exact ih r hr e hold time hcounts
      · rw [List.mem_singleton.mp hlast] at hcounts
        cases hcounts
  | count h hclock _ =>
      intro r hr e he time hcounts
      cases hr
      rcases List.mem_append.mp he with hold | hlast
      · exact Nat.add_le_add_right (Nat.le_trans (h.time_le e hold hcounts) hclock) _
      · rw [List.mem_singleton.mp hlast, Touch.countsFor_counted] at hcounts
        exact Nat.add_le_add_right (Nat.le_of_eq hcounts.2.symm) _
  | register h hclock _ _ =>
      intro r hr e he time hcounts
      cases hr
      rcases List.mem_append.mp he with hold | hlast
      · exact Nat.add_le_add_right (Nat.le_trans (h.time_le e hold hcounts) hclock) _
      · rw [List.mem_singleton.mp hlast, Touch.countsFor_registered] at hcounts
        exact Nat.add_le_add_right (Nat.le_of_eq hcounts.2.symm) _

/-- While a lookup is open, the row is one that it could not use. -/
theorem row_closed (h : Ledger window failed l clock openCall row) {i : Nat}
    (hopen : openCall = some i) : ∀ r ∈ row, failed r.session ∨ r.expiresAt ≤ clock := by
  cases h with
  | miss _ _ _ hclosed => exact hclosed
  | nil | count | register => cases hopen

/-- The session has failed, or its window ends before `time`. -/
def Closed (window : Nat) (failed : String → Prop) (l : List Touch) (session : String)
    (time : Nat) : Prop :=
  failed session ∨ ∀ e ∈ l, ∀ t, e.countsFor session = some t → t + window ≤ time

/-- A further entry that is not counted for the session leaves it closed. -/
theorem Closed.concat {session : String} {time time' : Nat} {e : Touch}
    (h : Closed window failed l session time) (he : e.countsFor session = none)
    (hle : time ≤ time') : Closed window failed (l ++ [e]) session time' := by
  refine h.imp_right fun hall e' he' t ht => ?_
  rcases List.mem_append.mp he' with hold | hlast
  · exact Nat.le_trans (hall e' hold t ht) hle
  · rw [List.mem_singleton.mp hlast, he] at ht
    cases ht

/-- The row is closed by the time at which it could not be used. -/
theorem closed_of_row (h : Ledger window failed l clock openCall row) {r : LedgerRow}
    (hr : r ∈ row) {time : Nat} (hclosed : failed r.session ∨ r.expiresAt ≤ time) :
    Closed window failed l r.session time :=
  hclosed.imp_right fun hle e he t ht => Nat.le_trans (h.row_expiry r hr e he t ht) hle

/-- A session that has registered has the row, or is closed. -/
theorem row_or_closed (h : Ledger window failed l clock openCall row) {j time : Nat}
    {session : String} (hreg : .registered j session time ∈ l) :
    (∃ r ∈ row, r.session = session) ∨ Closed window failed l session clock := by
  induction h with
  | nil => cases hreg
  | miss _ hclock _ _ ih =>
      have hold := (List.mem_append.mp hreg).resolve_right (by simp)
      exact (ih hold).imp_right fun hclosed => hclosed.concat rfl hclock
  | @count l clock time r _ hclock ih =>
      have hold := (List.mem_append.mp hreg).resolve_right (by simp)
      by_cases hs : r.session = session
      · exact Or.inl ⟨_, rfl, hs⟩
      · refine (ih hold).imp (fun ⟨r', hr, hs'⟩ => ?_) fun hclosed =>
          hclosed.concat (by simp [Touch.countsFor, hs]) hclock
        cases hr
        exact absurd hs' hs
  | @register l clock time i row s h hclock hfresh ih =>
      by_cases hs : s = session
      · exact Or.inl ⟨_, rfl, hs⟩
      · have hold := (List.mem_append.mp hreg).resolve_right fun hlast => by
          cases List.mem_singleton.mp hlast
          exact hs rfl
        refine Or.inr ?_
        rcases ih hold with ⟨r, hr, rfl⟩ | hclosed
        · exact (h.closed_of_row hr (h.row_closed rfl r hr)).concat
            (by simp [Touch.countsFor, hs]) hclock
        · exact hclosed.concat (by simp [Touch.countsFor, hs]) hclock

/-- The open lookup is the last one that missed. -/
theorem open_last (h : Ledger window failed l clock openCall row) {i j time time' : Nat}
    (hopen : openCall = some i) :
    ¬ List.Sublist [.missed i time, .missed j time'] l := by
  cases h with
  | nil | count | register => cases hopen
  | miss _ _ hfresh _ =>
      cases hopen
      intro hsub
      rcases pair_sublist_concat hsub with hold | ⟨hmem, -⟩
      · exact hfresh _ (hold.subset (List.mem_cons_self ..))
      · exact hfresh _ hmem

/-- The row is not that of a lookup before the last one that missed and registered. -/
theorem row_session_ne (h : Ledger window failed l clock openCall row) (hopen : openCall = none)
    {i j time time' t : Nat} {session : String}
    (hpair : List.Sublist [.missed i time, .missed j time'] l)
    (hreg : .registered i session t ∈ l) : ∀ r ∈ row, r.session ≠ session := by
  induction h with
  | nil => cases hreg
  | miss => cases hopen
  | @count l clock time r _ _ ih =>
      intro r' hr
      cases hr
      have hpair := (pair_sublist_concat hpair).resolve_right (by simp)
      have hreg := (List.mem_append.mp hreg).resolve_right (by simp)
      exact ih rfl hpair hreg r rfl
  | @register l clock time k row s h _ hfresh _ =>
      intro r hr
      cases hr
      have hbefore := (pair_sublist_concat hpair).resolve_right (by simp)
      rcases List.mem_append.mp hreg with hold | hlast
      · rintro rfl
        exact hfresh _ _ hold
      · cases List.mem_singleton.mp hlast
        exact absurd hbefore (h.open_last rfl)

/-- **Of two lookups that missed, the first one's session has failed, or its window was over when
the second one came.** -/
theorem expired_before_miss (h : Ledger window failed l clock openCall row)
    {i j time time' : Nat} (hpair : List.Sublist [.missed i time, .missed j time'] l) :
    ∃ session t, .registered i session t ∈ l ∧ Closed window failed l session time' := by
  induction h with
  | nil => simpa using hpair.length_le
  | @miss l clock time'' k row h hclock _ hclosed ih =>
      rcases pair_sublist_concat hpair with hold | ⟨hmem, heq⟩
      · obtain ⟨s, t, hreg, hs⟩ := ih hold
        exact ⟨s, t, List.mem_append_left _ hreg, hs.concat rfl (Nat.le_refl _)⟩
      · cases heq
        obtain ⟨s, t, hreg⟩ := (h.registered_or_open hmem).resolve_right nofun
        refine ⟨s, t, List.mem_append_left _ hreg, ?_⟩
        rcases h.row_or_closed hreg with ⟨r, hr, rfl⟩ | hs
        · exact (h.closed_of_row hr (hclosed r hr)).concat rfl (Nat.le_refl _)
        · exact hs.concat rfl hclock
  | @count l clock time'' r h _ ih =>
      have hold := (pair_sublist_concat hpair).resolve_right (by simp)
      obtain ⟨s, t, hreg, hs⟩ := ih hold
      have hne : r.session ≠ s := h.row_session_ne rfl hold hreg r rfl
      exact ⟨s, t, List.mem_append_left _ hreg,
        hs.concat (by simp [Touch.countsFor, hne]) (Nat.le_refl _)⟩
  | @register l clock time'' k row s' h _ hfresh ih =>
      have hold := (pair_sublist_concat hpair).resolve_right (by simp)
      obtain ⟨s, t, hreg, hs⟩ := ih hold
      have hne : s' ≠ s := by
        rintro rfl
        exact hfresh _ _ hreg
      exact ⟨s, t, List.mem_append_left _ hreg,
        hs.concat (by simp [Touch.countsFor, hne]) (Nat.le_refl _)⟩

end Ledger

end EnergyAgent.Agent
