import EnergyAgent.Lib.Base64
import Mathlib.Tactic.Ring

/-!
# Cursors

A cursor is the time and the id of the last row of a page, as a text in base64. Times are those of a
`DATETIME(6)` column; an aware `datetime` is given by its UTC time.
-/

namespace EnergyAgent.Catalog

open EnergyAgent.Lib

/-- `unfinished` stands for a loop that does not end. -/
inductive CatalogError
  | invalidRequest | unfinished
  deriving DecidableEq, Repr

/-! ## `encode_cursor`, `decode_cursor` -/

def encodeCursor (value : String) : String :=
  String.ofList (Base64.strip (Base64.encode value.toUTF8.data.toList))

def decodeCursor : Option String → Except CatalogError (Option String)
  | none => .ok none
  | some value =>
      if value = "" then .ok none
      else match Base64.decode (Base64.pad value.toList) with
        | none => .error .invalidRequest
        | some bytes =>
            match String.fromUTF8? ⟨bytes.toArray⟩ with
            | none => .error .invalidRequest
            | some decoded => if decoded = "" then .error .invalidRequest else .ok (some decoded)

theorem fromUTF8_toUTF8 (s : String) : String.fromUTF8? ⟨s.toUTF8.data.toList.toArray⟩ = some s := by
  have hvalid : s.toUTF8.IsValidUTF8 := s.isValidUTF8
  exact dif_pos hvalid

theorem encodeCursor_ne {s : String} (h : s ≠ "") : encodeCursor s ≠ "" := by
  intro hempty
  have hnil : Base64.strip (Base64.encode s.toUTF8.data.toList) = [] := by
    simpa [encodeCursor] using hempty
  refine Base64.strip_encode_ne_nil (fun hbytes => h ?_) hnil
  have hs := fromUTF8_toUTF8 s
  rw [hbytes] at hs
  exact (Option.some.inj (hs.symm.trans (fromUTF8_toUTF8 "")))

theorem decode_encode_cursor {s : String} (h : s ≠ "") :
    decodeCursor (some (encodeCursor s)) = .ok (some s) := by
  rw [decodeCursor, if_neg (encodeCursor_ne h), encodeCursor, String.toList_ofList,
    Base64.decode_pad_strip]
  simp only [fromUTF8_toUTF8, if_neg h]

/-! ## Times -/

def daysInMonth (year month : Nat) : Nat :=
  if month = 2 then
    if year % 4 = 0 ∧ (year % 100 ≠ 0 ∨ year % 400 = 0) then 29 else 28
  else if month = 4 ∨ month = 6 ∨ month = 9 ∨ month = 11 then 30 else 31

/-- The fields of a `datetime` without a time zone. -/
structure Fields where
  year : Nat
  month : Nat
  day : Nat
  hour : Nat
  minute : Nat
  second : Nat
  microsecond : Nat
  deriving DecidableEq, Repr

def Fields.Valid (f : Fields) : Prop :=
  (1 ≤ f.year ∧ f.year ≤ 9999) ∧ (1 ≤ f.month ∧ f.month ≤ 12) ∧
    (1 ≤ f.day ∧ f.day ≤ daysInMonth f.year f.month) ∧ f.hour < 24 ∧ f.minute < 60 ∧
    f.second < 60 ∧ f.microsecond < 1000000

instance (f : Fields) : Decidable f.Valid := inferInstanceAs (Decidable (_ ∧ _))

/-- A `datetime` without a time zone. -/
structure Time where
  fields : Fields
  valid : fields.Valid
  deriving DecidableEq

/-- The number by which times are compared. -/
def Fields.stamp (f : Fields) : Nat :=
  (((((f.year * 13 + f.month) * 32 + f.day) * 24 + f.hour) * 60 + f.minute) * 60 + f.second) *
    1000000 + f.microsecond

def Time.stamp (t : Time) : Nat := t.fields.stamp

theorem daysInMonth_le (year month : Nat) : daysInMonth year month ≤ 31 := by
  unfold daysInMonth
  split
  · split <;> omega
  · split <;> omega

theorem radix_inj {n a b c d : Nat} (hb : b < n) (hd : d < n) (h : a * n + b = c * n + d) :
    a = c ∧ b = d := by
  have hn : 0 < n := Nat.zero_lt_of_lt hb
  have hdiv := congrArg (· / n) h
  have hmod := congrArg (· % n) h
  simp only [Nat.mul_comm _ n, Nat.mul_add_div hn, Nat.div_eq_of_lt hb, Nat.div_eq_of_lt hd,
    Nat.mul_add_mod, Nat.mod_eq_of_lt hb, Nat.mod_eq_of_lt hd, Nat.add_zero] at hdiv hmod
  exact ⟨hdiv, hmod⟩

theorem Fields.stamp_inj {f f' : Fields} (hf : f.Valid) (hf' : f'.Valid)
    (h : f.stamp = f'.stamp) : f = f' := by
  obtain ⟨-, ⟨-, hmonth⟩, ⟨-, hday⟩, hhour, hminute, hsecond, hmicrosecond⟩ := hf
  obtain ⟨-, ⟨-, hmonth'⟩, ⟨-, hday'⟩, hhour', hminute', hsecond', hmicrosecond'⟩ := hf'
  have hday := Nat.le_trans hday (daysInMonth_le f.year f.month)
  have hday' := Nat.le_trans hday' (daysInMonth_le f'.year f'.month)
  obtain ⟨h, microsecond_eq⟩ := radix_inj hmicrosecond hmicrosecond' h
  obtain ⟨h, second_eq⟩ := radix_inj hsecond hsecond' h
  obtain ⟨h, minute_eq⟩ := radix_inj hminute hminute' h
  obtain ⟨h, hour_eq⟩ := radix_inj hhour hhour' h
  obtain ⟨h, day_eq⟩ := radix_inj (Nat.lt_succ_of_le hday) (Nat.lt_succ_of_le hday') h
  obtain ⟨year_eq, month_eq⟩ :=
    radix_inj (Nat.lt_succ_of_le hmonth) (Nat.lt_succ_of_le hmonth') h
  cases f
  cases f'
  exact Fields.mk.injEq .. ▸ ⟨year_eq, month_eq, day_eq, hour_eq, minute_eq, second_eq,
    microsecond_eq⟩

theorem Time.stamp_inj {t t' : Time} (h : t.stamp = t'.stamp) : t = t' := by
  cases t with
  | mk f hf =>
    cases t' with
    | mk f' hf' =>
      have heq := Fields.stamp_inj hf hf' h
      subst heq
      rfl

/-! ## `isoformat`, `fromisoformat` -/

/-- `f"{n:0{width}d}"` of a number that fits. -/
def decimal : Nat → Nat → List Char
  | 0, _ => []
  | width + 1, n => decimal width (n / 10) ++ [Nat.digitChar (n % 10)]

def readDigit (n : Nat) (c : Char) : Option Nat :=
  if c.isDigit then some (n * 10 + (c.toNat - '0'.toNat)) else none

/-- The number in the next `width` characters, and the text behind it. -/
def number (width : Nat) (text : List Char) : Option (Nat × List Char) :=
  if text.length < width then none
  else ((text.take width).foldlM readDigit 0).map fun n => (n, text.drop width)

def expect (c : Char) : List Char → Option (List Char)
  | c' :: text => if c' = c then some text else none
  | [] => none

/-- The microseconds, if there are any. -/
def fraction : List Char → Option (Nat × List Char)
  | '.' :: text => number 6 text
  | text => some (0, text)

def utcOffset : List Char := ['+', '0', '0', ':', '0', '0']

/-- `isoformat` of a time in UTC. -/
def isoformat (t : Time) : List Char :=
  let f := t.fields
  decimal 4 f.year ++ '-' :: (decimal 2 f.month ++ '-' :: (decimal 2 f.day ++ 'T' ::
    (decimal 2 f.hour ++ ':' :: (decimal 2 f.minute ++ ':' :: (decimal 2 f.second ++
      ((if f.microsecond = 0 then [] else '.' :: decimal 6 f.microsecond) ++ utcOffset))))))

def time? (f : Fields) : Option Time := if h : f.Valid then some ⟨f, h⟩ else none

/-- A text as `isoformat` writes it. -/
def readIso (text : List Char) : Option Time := do
  let (year, text) ← number 4 text
  let text ← expect '-' text
  let (month, text) ← number 2 text
  let text ← expect '-' text
  let (day, text) ← number 2 text
  let text ← expect 'T' text
  let (hour, text) ← number 2 text
  let text ← expect ':' text
  let (minute, text) ← number 2 text
  let text ← expect ':' text
  let (second, text) ← number 2 text
  let (microsecond, text) ← fraction text
  if text = utcOffset then time? ⟨year, month, day, hour, minute, second, microsecond⟩ else none

/-- A `datetime`; an aware one by its UTC time. -/
inductive Datetime
  | naive (t : Time)
  | aware (utc : Time)
  deriving DecidableEq

/-- `ensure_utc` -/
def ensureUtc : Datetime → Time
  | .naive t => t
  | .aware utc => utc

/-- `datetime.fromisoformat` (`none` is a `ValueError`); `other` reads the texts in other formats. -/
def fromisoformat (other : List Char → Option Datetime) (text : List Char) : Option Datetime :=
  match readIso text with
  | some t => some (.aware t)
  | none => other text

/-- `query_datetime` of a `datetime`. -/
def queryDatetime : Datetime → Time
  | .naive t => t
  | .aware utc => utc

theorem foldlM_decimal {width n : Nat} (h : n < 10 ^ width) (acc : Nat) :
    (decimal width n).foldlM readDigit acc = some (acc * 10 ^ width + n) := by
  induction width generalizing n with
  | zero =>
      have hzero : n = 0 := by omega
      simp [decimal, hzero]
  | succ width ih =>
      have hlt : n / 10 < 10 ^ width := by
        rw [Nat.pow_succ] at h
        omega
      have hread : ∀ d < 10, ∀ m, readDigit m (Nat.digitChar d) = some (m * 10 + d) := by
        intro d hd m
        have hspec : ∀ d < 10, (Nat.digitChar d).isDigit = true ∧
            (Nat.digitChar d).toNat - '0'.toNat = d := by decide
        rw [readDigit, if_pos (hspec d hd).1, (hspec d hd).2]
      rw [decimal, List.foldlM_append, ih hlt]
      simp only [Option.bind_eq_bind, Option.bind_some, List.foldlM_cons, List.foldlM_nil,
        hread _ (Nat.mod_lt n (by decide : 0 < 10)), Option.pure_def]
      congr 1
      rw [Nat.pow_succ]
      have hdiv := Nat.div_add_mod n 10
      calc (acc * 10 ^ width + n / 10) * 10 + n % 10
          = acc * (10 ^ width * 10) + (10 * (n / 10) + n % 10) := by ring
        _ = _ := by rw [hdiv]

theorem length_decimal (width n : Nat) : (decimal width n).length = width := by
  induction width generalizing n with
  | zero => rfl
  | succ width ih => simp [decimal, ih]

theorem number_decimal {width n : Nat} (h : n < 10 ^ width) (text : List Char) :
    number width (decimal width n ++ text) = some (n, text) := by
  have hlength := length_decimal width n
  rw [number, if_neg (by simp [hlength]), List.take_left' hlength, List.drop_left' hlength,
    foldlM_decimal h]
  simp

theorem fraction_isoformat {n : Nat} (h : n < 1000000) :
    fraction ((if n = 0 then [] else '.' :: decimal 6 n) ++ utcOffset) = some (n, utcOffset) := by
  by_cases hzero : n = 0
  · rw [if_pos hzero, hzero]
    rfl
  · rw [if_neg hzero]
    exact number_decimal h utcOffset

theorem number_bind {β : Type} {width n : Nat} (h : n < 10 ^ width) (text : List Char)
    (k : Nat × List Char → Option β) :
    (number width (decimal width n ++ text)).bind k = k (n, text) := by
  rw [number_decimal h, Option.bind_some]

theorem expect_bind {β : Type} (c : Char) (text : List Char) (k : List Char → Option β) :
    (expect c (c :: text)).bind k = k text := by
  rw [expect, if_pos rfl, Option.bind_some]

theorem readIso_isoformat (t : Time) : readIso (isoformat t) = some t := by
  obtain ⟨⟨-, hyear⟩, ⟨-, hmonth⟩, ⟨-, hday⟩, hhour, hminute, hsecond, hmicrosecond⟩ := t.valid
  have hday := Nat.le_trans hday (daysInMonth_le t.fields.year t.fields.month)
  have hyear : t.fields.year < 10 ^ 4 := by omega
  have htwo : ∀ {n : Nat}, n < 100 → n < 10 ^ 2 := id
  refine (number_bind hyear _ _).trans ((expect_bind _ _ _).trans ?_)
  refine (number_bind (htwo (by omega)) _ _).trans ((expect_bind _ _ _).trans ?_)
  refine (number_bind (htwo (by omega)) _ _).trans ((expect_bind _ _ _).trans ?_)
  refine (number_bind (htwo (by omega)) _ _).trans ((expect_bind _ _ _).trans ?_)
  refine (number_bind (htwo (by omega)) _ _).trans ((expect_bind _ _ _).trans ?_)
  refine (number_bind (htwo (by omega)) _ _).trans ?_
  refine (congrArg (Option.bind · _) (fraction_isoformat hmicrosecond)).trans ?_
  exact dif_pos t.valid

/-- A time survives its text. -/
theorem queryDatetime_isoformat (other : List Char → Option Datetime) (t : Time) :
    (fromisoformat other (isoformat t)).map queryDatetime = some t := by
  rw [fromisoformat, readIso_isoformat]
  rfl

/-! ## The text of a cursor -/

/-- `text.split("|", 1)`, if it has two parts. -/
def splitOnce : List Char → Option (List Char × List Char)
  | [] => none
  | c :: text => if c = '|' then some ([], text)
      else (splitOnce text).map fun (before, after) => (c :: before, after)

/-- The cursor behind a row. -/
def rowCursor (t : Time) (id : String) : String :=
  encodeCursor (String.ofList (isoformat t ++ '|' :: id.toList))

def readRow (other : List Char → Option Datetime) (text : List Char) :
    Except CatalogError (Time × String) :=
  match splitOnce text with
  | none => .error .invalidRequest
  | some (time, id) =>
      match fromisoformat other time with
      | none => .error .invalidRequest
      | some at_ => .ok (queryDatetime at_, String.ofList id)

/-- The time and the id of a cursor, if there is one. -/
def readCursor (other : List Char → Option Datetime) (cursor : Option String) :
    Except CatalogError (Option (Time × String)) :=
  match decodeCursor cursor with
  | .error e => .error e
  | .ok none => .ok none
  | .ok (some text) => (readRow other text.toList).map some

theorem splitOnce_append {before : List Char} (h : '|' ∉ before) (after : List Char) :
    splitOnce (before ++ '|' :: after) = some (before, after) := by
  induction before with
  | nil => rfl
  | cons c before ih =>
      obtain ⟨hc, hbefore⟩ := List.ne_and_not_mem_of_not_mem_cons h
      rw [List.cons_append, splitOnce, if_neg hc.symm, ih hbefore]
      rfl

theorem bar_not_mem_decimal (width n : Nat) : '|' ∉ decimal width n := by
  induction width generalizing n with
  | zero => exact List.not_mem_nil
  | succ width ih =>
      rw [decimal, List.mem_append, not_or]
      refine ⟨ih _, ?_⟩
      have hdigit : ∀ d < 10, '|' ≠ Nat.digitChar d := by decide
      rw [List.mem_singleton]
      exact hdigit _ (Nat.mod_lt n (by decide))

theorem bar_not_mem_isoformat (t : Time) : '|' ∉ isoformat t := by
  have hfraction : '|' ∉ (if t.fields.microsecond = 0 then []
      else '.' :: decimal 6 t.fields.microsecond) ++ utcOffset := by
    split <;> simp [utcOffset, bar_not_mem_decimal]
  have hpart : ∀ (width n : Nat) {rest : List Char}, '|' ∉ rest → '|' ∉ decimal width n ++ rest :=
    fun width n _ hrest hmem => (List.mem_append.mp hmem).elim (bar_not_mem_decimal width n) hrest
  have hsep : ∀ {c : Char} {rest : List Char}, '|' ≠ c → '|' ∉ rest → '|' ∉ c :: rest :=
    fun hc hrest hmem => (List.mem_cons.mp hmem).elim hc hrest
  refine hpart _ _ (hsep (by decide) (hpart _ _ (hsep (by decide) (hpart _ _ (hsep (by decide) ?_)))))
  exact hpart _ _ (hsep (by decide) (hpart _ _ (hsep (by decide) (hpart _ _ hfraction))))

/-- A cursor is read as the row it was made from. -/
theorem readCursor_rowCursor (other : List Char → Option Datetime) (t : Time) (id : String) :
    readCursor other (some (rowCursor t id)) = .ok (some (t, id)) := by
  have hne : String.ofList (isoformat t ++ '|' :: id.toList) ≠ "" := by
    simp
  have hrow : readRow other (isoformat t ++ '|' :: id.toList) = .ok (t, id) := by
    rw [readRow, splitOnce_append (bar_not_mem_isoformat t)]
    simp only [fromisoformat, readIso_isoformat, queryDatetime, String.ofList_toList]
  rw [readCursor, rowCursor, decode_encode_cursor hne]
  simp only [String.toList_ofList, hrow]
  rfl

end EnergyAgent.Catalog
