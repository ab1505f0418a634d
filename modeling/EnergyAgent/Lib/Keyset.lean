import Mathlib.Data.List.Pairwise
import Mathlib.Data.List.Sort

/-!
# Keyset pagination

A page is the first rows behind a cursor, in the order of a key; the cursor to the next page is the
mark of its last row. Following the cursors yields every row of a table once and in order. When the
table changes between two pages, the rows that stay are neither skipped nor repeated.
-/

namespace EnergyAgent.Lib.Keyset

/-! ## Sorted tables -/

/-- Two elements of a list stand in one order or the other. -/
theorem rel_or_rel {α : Type} {R : α → α → Prop} {l : List α} (h : l.Pairwise R) {a b : α}
    (ha : a ∈ l) (hb : b ∈ l) (hne : a ≠ b) : R a b ∨ R b a := by
  have hsymm : Std.Symm fun a b => R a b ∨ R b a := ⟨fun _ _ => Or.symm⟩
  have hpairs : l.Pairwise fun a b => R a b ∨ R b a := h.imp Or.inl
  exact hpairs.forall ha hb hne

section orderBy

variable {α κ : Type} [LinearOrder κ] (key : α → κ)

def orderBy (rows : List α) : List α := rows.insertionSort fun a b => key a ≤ key b

variable {key} {rows : List α}

theorem perm_orderBy : (orderBy key rows).Perm rows := List.perm_insertionSort _ _

theorem mem_orderBy {r : α} : r ∈ orderBy key rows ↔ r ∈ rows := perm_orderBy.mem_iff

/-- Rows of different keys come in strict order. -/
theorem pairwise_orderBy (h : (rows.map key).Nodup) :
    (orderBy key rows).Pairwise fun a b => key a < key b := by
  have htotal : IsTrans α fun a b => key a ≤ key b := ⟨fun _ _ _ => le_trans⟩
  have htotal' : Std.Total fun a b : α => key a ≤ key b := ⟨fun a b => le_total (key a) (key b)⟩
  have hle : (orderBy key rows).Pairwise fun a b => key a ≤ key b :=
    List.pairwise_insertionSort _ rows
  have hne : (orderBy key rows).Pairwise fun a b => key a ≠ key b :=
    List.pairwise_map.mp ((perm_orderBy.map key).nodup_iff.mpr h)
  exact hle.imp₂ (fun _ _ => lt_of_le_of_ne) hne

/-- A row of a smaller key comes first. -/
theorem pair_sublist_orderBy {a b : α} (ha : a ∈ rows) (hb : b ∈ rows) (hlt : key a < key b) :
    [a, b].Sublist (orderBy key rows) := by
  have htrans : IsTrans α fun a b => key a ≤ key b := ⟨fun _ _ _ => le_trans⟩
  have htotal : Std.Total fun a b : α => key a ≤ key b := ⟨fun a b => le_total (key a) (key b)⟩
  have hsorted : (orderBy key rows).Pairwise fun a b => key a ≤ key b :=
    List.pairwise_insertionSort _ rows
  have hpairs : (orderBy key rows).Pairwise fun a b => [a, b].Sublist (orderBy key rows) :=
    List.pairwise_iff_forall_sublist.mpr id
  have hne : a ≠ b := fun heq => absurd (heq ▸ hlt) (lt_irrefl _)
  rcases rel_or_rel (hsorted.and hpairs) (mem_orderBy.mpr ha) (mem_orderBy.mpr hb) hne with h | h
  · exact h.2
  · exact absurd hlt (not_lt_of_ge h.1)

theorem eq_of_sorted {rows rows' : List α} (hperm : rows.Perm rows')
    (h : rows.Pairwise fun a b => key a < key b) (h' : rows'.Pairwise fun a b => key a < key b) :
    rows = rows' :=
  hperm.eq_of_pairwise (fun _ _ _ _ hlt hlt' => absurd hlt' (lt_asymm hlt)) h h'

omit [LinearOrder κ] in
theorem nodup_filter (h : (rows.map key).Nodup) (p : α → Bool) : ((rows.filter p).map key).Nodup :=
  h.sublist (List.filter_sublist.map key)

theorem orderBy_filter (h : (rows.map key).Nodup) (p : α → Bool) :
    orderBy key (rows.filter p) = (orderBy key rows).filter p :=
  eq_of_sorted (perm_orderBy.trans (perm_orderBy.symm.filter p)) (pairwise_orderBy (nodup_filter h p))
    ((pairwise_orderBy h).filter p)

end orderBy

/-! ## Pages -/

section pages

variable {α γ κ : Type} [LinearOrder κ] (mark : α → γ) (pos : γ → κ)

/-- The rows behind a cursor. -/
def behind (cursor : Option γ) (rows : List α) : List α :=
  match cursor with
  | none => rows
  | some m => rows.filter fun r => pos m < pos (mark r)

/-- The rows behind a cursor in order. -/
def ahead (cursor : Option γ) (rows : List α) : List α :=
  orderBy (fun r => pos (mark r)) (behind mark pos cursor rows)

structure Page (α γ : Type) where
  items : List α
  next : Option γ

/-- `rows` in order from the cursor on, with a `LIMIT` of `limit + 1`. -/
def page (rows : List α) (limit : Nat) (cursor : Option γ) : Page α γ :=
  let found := (ahead mark pos cursor rows).take (limit + 1)
  ⟨found.take limit, if limit < found.length then (found.take limit).getLast?.map mark else none⟩

/-- The marks of a table are at different positions. -/
abbrev Distinct (rows : List α) : Prop := (rows.map fun r => pos (mark r)).Nodup

variable {mark pos} {rows : List α} {limit : Nat} {cursor : Option γ}

theorem page_items : (page mark pos rows limit cursor).items =
    (ahead mark pos cursor rows).take limit := by
  simp [page, List.take_take]

theorem page_next : (page mark pos rows limit cursor).next =
    if limit < (ahead mark pos cursor rows).length then
      ((ahead mark pos cursor rows).take limit).getLast?.map mark else none := by
  have hlength : limit < ((ahead mark pos cursor rows).take (limit + 1)).length ↔
      limit < (ahead mark pos cursor rows).length := by
    rw [List.length_take]
    omega
  simp only [page, hlength, List.take_take, Nat.min_eq_left (Nat.le_succ limit)]

theorem Distinct.behind (h : Distinct mark pos rows) :
    Distinct mark pos (behind mark pos cursor rows) := by
  cases cursor with
  | none => exact h
  | some m => exact nodup_filter h _

theorem pairwise_ahead (h : Distinct mark pos rows) :
    (ahead mark pos cursor rows).Pairwise fun a b => pos (mark a) < pos (mark b) :=
  pairwise_orderBy h.behind

theorem mem_ahead {r : α} : r ∈ ahead mark pos cursor rows ↔ r ∈ behind mark pos cursor rows :=
  mem_orderBy

theorem mem_behind {r : α} : r ∈ behind mark pos cursor rows ↔
    r ∈ rows ∧ ∀ m ∈ cursor, pos m < pos (mark r) := by
  cases cursor <;> simp [behind]

theorem ahead_filter (h : Distinct mark pos rows) (p : α → Bool) :
    ahead mark pos cursor (rows.filter p) = (ahead mark pos cursor rows).filter p := by
  have hbehind : behind mark pos cursor (rows.filter p) =
      (behind mark pos cursor rows).filter p := by
    cases cursor with
    | none => rfl
    | some m => simp only [behind, List.filter_filter, Bool.and_comm]
  rw [ahead, hbehind, orderBy_filter h.behind, ahead]

theorem length_ahead_le : (ahead mark pos cursor rows).length ≤ rows.length := by
  rw [ahead, perm_orderBy.length_eq]
  cases cursor with
  | none => exact le_rfl
  | some m => exact List.length_filter_le _ _

/-- A page that is not the last one is full, and its cursor is the mark of its last row. -/
theorem page_next_eq_some {m : γ} (h : (page mark pos rows limit cursor).next = some m) :
    ∃ init r, (ahead mark pos cursor rows).take limit = init ++ [r] ∧ mark r = m ∧
      limit < (ahead mark pos cursor rows).length := by
  rw [page_next] at h
  split at h
  · next hlt =>
      obtain ⟨r, hr, hmark⟩ := Option.map_eq_some_iff.mp h
      obtain ⟨init, hinit⟩ := List.getLast?_eq_some_iff.mp hr
      exact ⟨init, r, hinit, hmark, hlt⟩
  · cases h

theorem page_next_eq_none (hlimit : 1 ≤ limit) (h : (page mark pos rows limit cursor).next = none) :
    (ahead mark pos cursor rows).length ≤ limit := by
  rw [page_next] at h
  by_contra hlt
  rw [if_pos (Nat.not_le.mp hlt)] at h
  have hnil := List.getLast?_eq_none_iff.mp (Option.map_eq_none_iff.mp h)
  have hlength := congrArg List.length hnil
  rw [List.length_take, List.length_nil] at hlength
  omega

theorem page_next_isSome (hlimit : 1 ≤ limit) : (page mark pos rows limit cursor).next.isSome =
    decide (limit < (ahead mark pos cursor rows).length) := by
  cases hnext : (page mark pos rows limit cursor).next with
  | none => simpa using page_next_eq_none hlimit hnext
  | some m =>
      obtain ⟨-, -, -, -, hmore⟩ := page_next_eq_some hnext
      simpa using hmore

/-- What is behind the cursor of a page is what the page has left over. -/
theorem ahead_next (h : Distinct mark pos rows) {m : γ}
    (hnext : (page mark pos rows limit cursor).next = some m) :
    ahead mark pos (some m) rows = (ahead mark pos cursor rows).drop limit := by
  obtain ⟨init, r, htake, rfl, -⟩ := page_next_eq_some hnext
  have hsorted := @pairwise_ahead _ _ _ _ mark pos rows cursor h
  have hsplit : ahead mark pos cursor rows = (init ++ [r]) ++ (ahead mark pos cursor rows).drop limit := by
    rw [← htake, List.take_append_drop]
  have hr : r ∈ ahead mark pos cursor rows := by
    rw [hsplit]
    simp
  have hcursor : ∀ m ∈ cursor, pos m < pos (mark r) := (mem_behind.mp (mem_ahead.mp hr)).2
  have hbehind : behind mark pos (some (mark r)) rows =
      (behind mark pos cursor rows).filter fun x => pos (mark r) < pos (mark x) := by
    cases cursor with
    | none => rfl
    | some m =>
        have hm := hcursor m rfl
        simp only [behind, List.filter_filter]
        refine List.filter_congr fun x _ => ?_
        rw [eq_comm, Bool.and_eq_left_iff_imp]
        intro hx
        exact decide_eq_true (hm.trans (of_decide_eq_true hx))
  obtain ⟨htaken, -, hleft⟩ := List.pairwise_append.mp (hsplit ▸ hsorted)
  have hbefore : (init ++ [r]).filter (fun x => pos (mark r) < pos (mark x)) = [] := by
    refine List.filter_eq_nil_iff.mpr fun x hx => ?_
    rw [decide_eq_true_eq, not_lt]
    rcases List.mem_append.mp hx with hx | hx
    · exact le_of_lt ((List.pairwise_append.mp htaken).2.2 x hx r (List.mem_singleton_self r))
    · rw [List.mem_singleton.mp hx]
  have hafter : ((ahead mark pos cursor rows).drop limit).filter
      (fun x => pos (mark r) < pos (mark x)) = (ahead mark pos cursor rows).drop limit :=
    List.filter_eq_self.mpr fun x hx => decide_eq_true (hleft r (by simp) x hx)
  calc ahead mark pos (some (mark r)) rows
      = (ahead mark pos cursor rows).filter fun x => pos (mark r) < pos (mark x) := by
        rw [ahead, hbehind, orderBy_filter h.behind, ahead]
    _ = ((init ++ [r]) ++ (ahead mark pos cursor rows).drop limit).filter
          fun x => pos (mark r) < pos (mark x) := by rw [← hsplit]
    _ = (ahead mark pos cursor rows).drop limit := by
        rw [List.filter_append, hbefore, hafter, List.nil_append]

/-! ## Following the cursors -/

section follow

variable {ε δ P : Type} (next : P → Option δ)

/-- The pages of a client that takes one request after the other, each with the cursor of the page
before, until there is none. -/
def follow (cursor : Option δ) : List (Option δ → Except ε P) → Except ε (List P)
  | [] => .ok []
  | request :: requests => do
      let p ← request cursor
      match next p with
      | none => pure [p]
      | some m => do
          let ps ← follow (some m) requests
          pure (p :: ps)

/-- The last page has no cursor. -/
def Ended (ps : List P) : Prop := ∃ p ∈ ps.getLast?, next p = none

end follow

variable (mark pos) in
/-- The pages of tables that may differ. -/
def followed (limit : Nat) (cursor : Option γ) : List (List α) → List (Page α γ)
  | [] => []
  | rows :: tables =>
      let p := page mark pos rows limit cursor
      p :: match p.next with
        | none => []
        | some m => followed limit (some m) tables

theorem followed_last {tables : List (List α)} (h : (page mark pos rows limit cursor).next = none) :
    followed mark pos limit cursor (rows :: tables) = [page mark pos rows limit cursor] := by
  rw [followed]
  simp only [h]

theorem followed_next {tables : List (List α)} {m : γ}
    (h : (page mark pos rows limit cursor).next = some m) :
    followed mark pos limit cursor (rows :: tables) =
      page mark pos rows limit cursor :: followed mark pos limit (some m) tables := by
  rw [followed]
  simp only [h]

theorem ended_cons {m : γ} {p : Page α γ} {ps : List (Page α γ)} (h : p.next = some m) :
    Ended Page.next (p :: ps) ↔ Ended Page.next ps := by
  cases ps with
  | nil => simp [Ended, h]
  | cons q qs => simp [Ended]

theorem length_items_le {tables : List (List α)} :
    ∀ p ∈ followed mark pos limit cursor tables, p.items.length ≤ limit := by
  induction tables generalizing cursor with
  | nil => simp [followed]
  | cons rows tables ih =>
      have hpage : (page mark pos rows limit cursor).items.length ≤ limit := by
        rw [page_items]
        exact List.length_take_le _ _
      cases hnext : (page mark pos rows limit cursor).next with
      | none =>
          rw [followed_last hnext]
          simpa using hpage
      | some m =>
          rw [followed_next hnext]
          intro p hp
          rcases List.mem_cons.mp hp with rfl | hp
          · exact hpage
          · exact ih p hp

/-- One table: from each cursor on, the pages yield what is ahead of it. -/
theorem followed_fixed (h : Distinct mark pos rows) (hlimit : 1 ≤ limit) {n : Nat}
    (hn : (ahead mark pos cursor rows).length < n) :
    Ended Page.next (followed mark pos limit cursor (List.replicate n rows)) ∧
    (followed mark pos limit cursor (List.replicate n rows)).flatMap Page.items =
      ahead mark pos cursor rows := by
  induction n generalizing cursor with
  | zero => exact absurd hn (Nat.not_lt_zero _)
  | succ n ih =>
      rw [List.replicate_succ]
      cases hnext : (page mark pos rows limit cursor).next with
      | none =>
          rw [followed_last hnext]
          refine ⟨⟨_, rfl, hnext⟩, ?_⟩
          rw [List.flatMap_cons, List.flatMap_nil, List.append_nil, page_items]
          exact List.take_of_length_le (page_next_eq_none hlimit hnext)
      | some m =>
          have hrest := ahead_next h hnext
          obtain ⟨-, -, -, -, hmore⟩ := page_next_eq_some hnext
          have hlt : (ahead mark pos (some m) rows).length < n := by
            rw [hrest, List.length_drop]
            omega
          obtain ⟨hended, hitems⟩ := ih hlt
          rw [followed_next hnext, ended_cons hnext]
          refine ⟨hended, ?_⟩
          rw [List.flatMap_cons, hitems, page_items, hrest, List.take_append_drop]

/-- A page has a cursor exactly when something comes after it. -/
theorem followed_more (h : Distinct mark pos rows) (hlimit : 1 ≤ limit) {n : Nat}
    (hn : (ahead mark pos cursor rows).length < n) {before after : List (Page α γ)} {p : Page α γ}
    (hsplit : followed mark pos limit cursor (List.replicate n rows) = before ++ p :: after) :
    p.next.isSome ↔ after.flatMap Page.items ≠ [] := by
  induction n generalizing cursor before with
  | zero => exact absurd hn (Nat.not_lt_zero _)
  | succ n ih =>
      rw [List.replicate_succ] at hsplit
      cases hnext : (page mark pos rows limit cursor).next with
      | none =>
          rw [followed_last hnext] at hsplit
          cases before with
          | nil =>
              obtain ⟨rfl, rfl⟩ := List.cons.inj hsplit
              simp [hnext]
          | cons q before => simp at hsplit
      | some m =>
          have hrest := ahead_next h hnext
          obtain ⟨-, -, -, -, hmore⟩ := page_next_eq_some hnext
          have hlt : (ahead mark pos (some m) rows).length < n := by
            rw [hrest, List.length_drop]
            omega
          rw [followed_next hnext] at hsplit
          cases before with
          | nil =>
              obtain ⟨rfl, rfl⟩ := List.cons.inj hsplit
              rw [(followed_fixed h hlimit hlt).2, hnext, hrest]
              simpa [List.drop_eq_nil_iff] using hmore
          | cons q before => exact ih hlt (List.cons.inj hsplit).2

/-- Everything behind a cursor is behind it. -/
theorem lt_of_mem_followed {tables : List (List α)} {c : γ} {r : α}
    (h : r ∈ (followed mark pos limit (some c) tables).flatMap Page.items) :
    pos c < pos (mark r) := by
  induction tables generalizing c with
  | nil => simp [followed] at h
  | cons rows tables ih =>
      have hpage : ∀ r ∈ (page mark pos rows limit (some c)).items, pos c < pos (mark r) := by
        intro r hr
        rw [page_items] at hr
        exact (mem_behind.mp (mem_ahead.mp (List.mem_of_mem_take hr))).2 c rfl
      cases hnext : (page mark pos rows limit (some c)).next with
      | none =>
          rw [followed_last hnext] at h
          exact hpage r (by simpa using h)
      | some m =>
          rw [followed_next hnext, List.flatMap_cons] at h
          rcases List.mem_append.mp h with h | h
          · exact hpage r h
          · obtain ⟨init, last, htake, rfl, -⟩ := page_next_eq_some hnext
            have hlast := hpage last (by rw [page_items, htake]; simp)
            exact hlast.trans (ih h)

/-- A row of every table is yielded once, or it is still ahead of the last cursor. -/
theorem followed_once [BEq γ] [LawfulBEq γ] {tables : List (List α)} {m : γ} (hlimit : 1 ≤ limit)
    (h : ∀ rows ∈ tables, Distinct mark pos rows ∧ ∃ r ∈ rows, mark r = m)
    (hcursor : ∀ c ∈ cursor, pos c < pos m) :
    let pages := followed mark pos limit cursor tables
    (pages.flatMap Page.items |>.map mark).count m = 1 ∨
      (¬ Ended Page.next pages ∧ ∀ r ∈ pages.flatMap Page.items, pos (mark r) < pos m) := by
  induction tables generalizing cursor with
  | nil => exact .inr ⟨by simp [followed, Ended], by simp [followed]⟩
  | cons rows tables ih =>
      obtain ⟨⟨hdistinct, r, hr, rfl⟩, htables⟩ := List.forall_mem_cons.mp h
      have hsorted := @pairwise_ahead _ _ _ _ mark pos rows cursor hdistinct
      have hahead : r ∈ ahead mark pos cursor rows :=
        mem_ahead.mpr (mem_behind.mpr ⟨hr, hcursor⟩)
      have hnodup : ((ahead mark pos cursor rows).map mark).Nodup :=
        List.pairwise_map.mpr (hsorted.imp fun hlt heq => absurd (congrArg pos heq) hlt.ne)
      rw [← List.take_append_drop limit (ahead mark pos cursor rows)] at hahead hsorted
      obtain ⟨htaken, -, hleft⟩ := List.pairwise_append.mp hsorted
      have hitems : (page mark pos rows limit cursor).items =
          (ahead mark pos cursor rows).take limit := page_items
      rcases List.mem_append.mp hahead with htake | hdrop
      · -- The row is on this page: it is not on a later one.
        have hone : ((page mark pos rows limit cursor).items.map mark).count (mark r) = 1 := by
          rw [hitems]
          refine List.count_eq_one_of_mem ?_ (List.mem_map_of_mem htake)
          exact hnodup.sublist ((List.take_sublist _ _).map mark)
        refine .inl ?_
        cases hnext : (page mark pos rows limit cursor).next with
        | none =>
            rw [followed_last hnext]
            simpa using hone
        | some c =>
            obtain ⟨init, last, hinit, rfl, -⟩ := page_next_eq_some hnext
            have hle : pos (mark r) ≤ pos (mark last) := by
              rw [hinit] at htake htaken
              rcases List.mem_append.mp htake with hmem | hmem
              · exact le_of_lt ((List.pairwise_append.mp htaken).2.2 r hmem last
                  (List.mem_singleton_self _))
              · rw [List.mem_singleton.mp hmem]
            have hnone : ((followed mark pos limit (some (mark last)) tables).flatMap Page.items
                |>.map mark).count (mark r) = 0 := by
              refine List.count_eq_zero_of_not_mem fun hmem => ?_
              obtain ⟨r', hr', heq⟩ := List.mem_map.mp hmem
              have hlt := lt_of_mem_followed hr'
              rw [heq] at hlt
              exact absurd hlt (not_lt.mpr hle)
            rw [followed_next hnext, List.flatMap_cons, List.map_append, List.count_append, hone,
              hnone]
      · -- The row comes later: the page is full, and its cursor is before the row.
        have hbefore : ∀ r' ∈ (page mark pos rows limit cursor).items,
            pos (mark r') < pos (mark r) := fun r' hr' => hleft r' (hitems ▸ hr') r hdrop
        have hlt : limit < (ahead mark pos cursor rows).length := by
          by_contra hle
          rw [List.drop_eq_nil_of_le (Nat.not_lt.mp hle)] at hdrop
          exact absurd hdrop List.not_mem_nil
        cases hnext : (page mark pos rows limit cursor).next with
        | none => exact absurd (page_next_eq_none hlimit hnext) (Nat.not_le.mpr hlt)
        | some c =>
            obtain ⟨init, last, hinit, rfl, -⟩ := page_next_eq_some hnext
            have hlast := hbefore last (by rw [hitems, hinit]; simp)
            have hnone : ((page mark pos rows limit cursor).items.map mark).count (mark r) = 0 := by
              refine List.count_eq_zero_of_not_mem fun hmem => ?_
              obtain ⟨r', hr', heq⟩ := List.mem_map.mp hmem
              exact absurd (heq ▸ hbefore r' hr') (lt_irrefl _)
            rw [followed_next hnext]
            rcases ih htables (fun c hc => Option.some.inj hc ▸ hlast) with hone | ⟨hended, hrest⟩
            · refine .inl ?_
              rw [List.flatMap_cons, List.map_append, List.count_append, hnone, hone]
            · refine .inr ⟨(ended_cons hnext).not.mpr hended, fun r' hr' => ?_⟩
              rw [List.flatMap_cons] at hr'
              exact (List.mem_append.mp hr').elim (hbefore r') (hrest r')

/-! ## Requests with cursors of their own -/

section serves

variable {ε δ P β : Type} (encode : γ → δ) (shows : P → Page α γ → Prop)

variable (mark pos) in
/-- What the request returns shows the page of the table. -/
def Serves (limit : Nat) (request : Option δ → Except ε P) (rows : List α) : Prop :=
  ∀ cursor p, request (cursor.map encode) = .ok p → shows p (page mark pos rows limit cursor)

variable {encode shows} {next : P → Option δ}

theorem follow_cons {request : Option δ → Except ε P} {requests : List (Option δ → Except ε P)}
    {c : Option δ} {ps : List P} (h : follow next c (request :: requests) = .ok ps) :
    ∃ p, request c = .ok p ∧ ((next p = none ∧ ps = [p]) ∨
      ∃ m rest, next p = some m ∧ follow next (some m) requests = .ok rest ∧ ps = p :: rest) := by
  rw [follow] at h
  cases hrequest : request c with
  | error e => rw [hrequest] at h; cases h
  | ok p =>
      rw [hrequest] at h
      refine ⟨p, rfl, ?_⟩
      change (match next p with | none => _ | some m => _) = _ at h
      cases hnext : next p with
      | none =>
          rw [hnext] at h
          cases h
          exact .inl ⟨rfl, rfl⟩
      | some m =>
          rw [hnext] at h
          change (follow next (some m) requests).bind _ = _ at h
          cases hrest : follow next (some m) requests with
          | error e => rw [hrest] at h; cases h
          | ok rest =>
              rw [hrest] at h
              cases h
              exact .inr ⟨m, rest, rfl, hrest, rfl⟩

/-- The pages that the requests return show the pages of the tables. -/
theorem follow_serves (hnext : ∀ p q, shows p q → next p = q.next.map encode)
    {requests : List (Option δ → Except ε P)} {tables : List (List α)}
    (h : List.Forall₂ (Serves mark pos encode shows limit) requests tables)
    {ps : List P} (hps : follow next (cursor.map encode) requests = .ok ps) :
    List.Forall₂ shows ps (followed mark pos limit cursor tables) := by
  induction h generalizing cursor ps with
  | nil =>
      cases hps
      exact .nil
  | @cons request rows requests tables hserves _ ih =>
      obtain ⟨p, hp, ⟨hnone, rfl⟩ | ⟨c, rest, hsome, hrest, rfl⟩⟩ := follow_cons hps
      · have hpage := hserves cursor p hp
        rw [followed_last (Option.map_eq_none_iff.mp ((hnext _ _ hpage).symm.trans hnone))]
        exact .cons hpage .nil
      · have hpage := hserves cursor p hp
        obtain ⟨m, hm, rfl⟩ := Option.map_eq_some_iff.mp ((hnext _ _ hpage).symm.trans hsome)
        rw [followed_next hm]
        exact .cons hpage (ih hrest)

/-- Requests that return a page for every cursor are followed to an end. -/
theorem follow_total (hnext : ∀ p q, shows p q → next p = q.next.map encode)
    {requests : List (Option δ → Except ε P)} {tables : List (List α)}
    (h : List.Forall₂ (Serves mark pos encode shows limit) requests tables)
    (htotal : ∀ request ∈ requests, ∀ cursor : Option γ, ∃ p, request (cursor.map encode) = .ok p) :
    ∃ ps, follow next (cursor.map encode) requests = .ok ps := by
  induction h generalizing cursor with
  | nil => exact ⟨[], rfl⟩
  | @cons request rows requests tables hserves _ ih =>
      obtain ⟨hrequest, hrequests⟩ := List.forall_mem_cons.mp htotal
      obtain ⟨p, hp⟩ := hrequest cursor
      have hpage := hnext _ _ (hserves cursor p hp)
      rw [follow, hp]
      change ∃ ps, (match next p with | none => _ | some m => _) = Except.ok ps
      cases hsome : next p with
      | none => exact ⟨[p], rfl⟩
      | some c =>
          obtain ⟨m, -, rfl⟩ := Option.map_eq_some_iff.mp (hpage.symm.trans hsome)
          obtain ⟨ps, hps⟩ := @ih (some m) hrequests
          refine ⟨p :: ps, ?_⟩
          change (follow next (some (encode m)) requests).bind _ = _
          rw [show follow next (some (encode m)) requests = .ok ps from hps]
          rfl

theorem flatMap_served {items : P → List β} {view : α → β}
    (hitems : ∀ p q, shows p q → items p = q.items.map view) {ps : List P} {qs : List (Page α γ)}
    (h : List.Forall₂ shows ps qs) : ps.flatMap items = (qs.flatMap Page.items).map view := by
  induction h with
  | nil => rfl
  | cons hp _ ih => rw [List.flatMap_cons, List.flatMap_cons, List.map_append, hitems _ _ hp, ih]

theorem ended_served (hnext : ∀ p q, shows p q → next p = q.next.map encode) {ps : List P}
    {qs : List (Page α γ)} (h : List.Forall₂ shows ps qs) : Ended next ps ↔ Ended Page.next qs := by
  induction h with
  | nil => simp [Ended]
  | @cons p q ps qs hp hrest ih =>
      cases hrest with
      | nil => simp [Ended, hnext _ _ hp]
      | cons _ _ => simpa [Ended] using ih

theorem split_served {before after : List P} {p : P} {qs : List (Page α γ)}
    (h : List.Forall₂ shows (before ++ p :: after) qs) :
    ∃ qs₁ q qs₂, qs = qs₁ ++ q :: qs₂ ∧ shows p q ∧ List.Forall₂ shows after qs₂ := by
  induction before generalizing qs with
  | nil =>
      cases h with
      | cons hp hafter => exact ⟨[], _, _, rfl, hp, hafter⟩
  | cons p' before ih =>
      cases h with
      | cons _ hrest =>
          obtain ⟨qs₁, q, qs₂, rfl, hp, hafter⟩ := ih hrest
          exact ⟨_ :: qs₁, q, qs₂, rfl, hp, hafter⟩

theorem forall₂_replicate {request : Option δ → Except ε P}
    (h : Serves mark pos encode shows limit request rows) (n : Nat) :
    List.Forall₂ (Serves mark pos encode shows limit) (List.replicate n request)
      (List.replicate n rows) := by
  induction n with
  | zero => exact .nil
  | succ n ih => exact .cons h ih

/-- Following the cursors of one table yields every row once and in order, in pages of at most
`limit` rows, and a page has a cursor exactly when a row is still to come. -/
theorem follow_fixed {request : Option δ → Except ε P} {items : P → List β} {view : α → β}
    (hnext : ∀ p q, shows p q → next p = q.next.map encode)
    (hitems : ∀ p q, shows p q → items p = q.items.map view)
    (hserves : Serves mark pos encode shows limit request rows)
    (htotal : ∀ cursor : Option γ, ∃ p, request (cursor.map encode) = .ok p)
    (hdistinct : Distinct mark pos rows) (hlimit : 1 ≤ limit) {n : Nat} (hn : rows.length < n) :
    ∃ pages, follow next none (List.replicate n request) = .ok pages ∧ Ended next pages ∧
      pages.flatMap items = (orderBy (fun r => pos (mark r)) rows).map view ∧
      (∀ p ∈ pages, (items p).length ≤ limit ∧ ∃ q, shows p q) ∧
      ∀ before p after, pages = before ++ p :: after → ((next p).isSome ↔
        (before ++ [p]).flatMap items ≠ (orderBy (fun r => pos (mark r)) rows).map view) := by
  have hrequests := forall₂_replicate hserves n
  obtain ⟨pages, hpages⟩ := @follow_total _ _ _ _ _ _ _ none _ _ _ _ _ _ hnext _ _ hrequests
    fun r hr cursor => List.eq_of_mem_replicate hr ▸ htotal cursor
  have hshown := follow_serves hnext hrequests hpages
  have hahead : (ahead mark pos none rows).length < n := length_ahead_le.trans_lt hn
  obtain ⟨hended, hall⟩ := followed_fixed hdistinct hlimit hahead
  have hflat : pages.flatMap items = (orderBy (fun r => pos (mark r)) rows).map view :=
    (flatMap_served hitems hshown).trans (congrArg (List.map view) hall)
  refine ⟨pages, hpages, (ended_served hnext hshown).mpr hended, hflat, ?_, ?_⟩
  · intro p hp
    obtain ⟨before, after, rfl⟩ := List.append_of_mem hp
    obtain ⟨qs₁, q, qs₂, hqs, hpq, -⟩ := split_served hshown
    have hq : q ∈ followed mark pos limit none (List.replicate n rows) := by
      rw [hqs]
      simp
    rw [hitems _ _ hpq, List.length_map]
    exact ⟨length_items_le q hq, q, hpq⟩
  · rintro before p after rfl
    obtain ⟨qs₁, q, qs₂, hqs, hpq, hafter⟩ := split_served hshown
    have hmore := followed_more hdistinct hlimit hahead hqs
    have hrest : after.flatMap items ≠ [] ↔ qs₂.flatMap Page.items ≠ [] := by
      rw [flatMap_served hitems hafter, ne_eq, List.map_eq_nil_iff]
    rw [List.append_cons, List.flatMap_append] at hflat
    rw [hnext _ _ hpq, Option.isSome_map, hmore, ← hrest, ← hflat]
    simp

/-- Tables that change between the pages: a mark that is in every table is yielded once, or it is
still ahead of the last cursor. -/
theorem follow_once [BEq γ] [LawfulBEq γ] {requests : List (Option δ → Except ε P)}
    {tables : List (List α)} {marks : P → List γ} {m : γ}
    (hnext : ∀ p q, shows p q → next p = q.next.map encode)
    (hmarks : ∀ p q, shows p q → marks p = q.items.map mark)
    (hserves : List.Forall₂ (Serves mark pos encode shows limit) requests tables)
    (hlimit : 1 ≤ limit)
    (htables : ∀ rows ∈ tables, Distinct mark pos rows ∧ ∃ r ∈ rows, mark r = m) {pages : List P}
    (hpages : follow next none requests = .ok pages) :
    (pages.flatMap marks).count m = 1 ∨
      (¬ Ended next pages ∧ ∀ m' ∈ pages.flatMap marks, pos m' < pos m) := by
  have hshown := @follow_serves _ _ _ _ _ _ _ none _ _ _ _ _ _ hnext _ _ hserves _ hpages
  rw [flatMap_served hmarks hshown, ended_served hnext hshown]
  rcases @followed_once _ _ _ _ mark pos limit none _ _ tables m hlimit htables (by simp) with
    hone | ⟨hended, hbefore⟩
  · exact .inl hone
  · refine .inr ⟨hended, fun m' hm' => ?_⟩
    obtain ⟨r, hr, rfl⟩ := List.mem_map.mp hm'
    exact hbefore r hr

end serves

end pages

end EnergyAgent.Lib.Keyset
