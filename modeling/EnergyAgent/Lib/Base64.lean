import Mathlib.Data.List.Basic

/-!
# URL-safe base64 without its padding

`encode` is `base64.urlsafe_b64encode` and `decode` is `base64.b64decode` with `altchars=b"-_"` and
`validate=True`: the two further characters of the plain alphabet are taken too, anything else and
a padding that does not complete the last group are refused.
-/

namespace EnergyAgent.Lib.Base64

def digits : List Char :=
  "ABCDEFGHIJKLMNOPQRSTUVWXYZabcdefghijklmnopqrstuvwxyz0123456789-_".toList

def digit (n : Nat) : Char := digits.getD n '='

def value (c : Char) : Option Nat :=
  if c = '+' then some 62 else if c = '/' then some 63
  else (digits.findIdx? (· = c))

def encode : List UInt8 → List Char
  | a :: b :: c :: rest =>
      digit (a.toNat / 4) :: digit (a.toNat % 4 * 16 + b.toNat / 16) ::
        digit (b.toNat % 16 * 4 + c.toNat / 64) :: digit (c.toNat % 64) :: encode rest
  | [a, b] =>
      [digit (a.toNat / 4), digit (a.toNat % 4 * 16 + b.toNat / 16), digit (b.toNat % 16 * 4), '=']
  | [a] => [digit (a.toNat / 4), digit (a.toNat % 4 * 16), '=', '=']
  | [] => []

def decode : List Char → Option (List UInt8)
  | [] => some []
  | [a, b, '=', '='] => do
      let x ← value a
      let y ← value b
      some [UInt8.ofNat (x * 4 + y / 16)]
  | [a, b, c, '='] => do
      let x ← value a
      let y ← value b
      let z ← value c
      some [UInt8.ofNat (x * 4 + y / 16), UInt8.ofNat (y % 16 * 16 + z / 4)]
  | a :: b :: c :: d :: rest => do
      let x ← value a
      let y ← value b
      let z ← value c
      let u ← value d
      let bytes ← decode rest
      some (UInt8.ofNat (x * 4 + y / 16) :: UInt8.ofNat (y % 16 * 16 + z / 4) ::
        UInt8.ofNat (z % 4 * 64 + u) :: bytes)
  | _ => none

/-- `text.rstrip("=")` -/
def strip (text : List Char) : List Char := (text.reverse.dropWhile (· = '=')).reverse

/-- `text + "=" * (-len(text) % 4)` -/
def pad (text : List Char) : List Char := text ++ List.replicate ((4 - text.length % 4) % 4) '='

theorem digit_spec : ∀ n < 64, value (digit n) = some n ∧ digit n ≠ '=' := by decide +kernel

theorem value_digit {n : Nat} (h : n < 64) : value (digit n) = some n := (digit_spec n h).1

theorem digit_ne {n : Nat} (h : n < 64) : digit n ≠ '=' := (digit_spec n h).2

theorem ofNat_eq {n : Nat} {a : UInt8} (h : n = a.toNat) : UInt8.ofNat n = a := by
  rw [h, UInt8.ofNat_toNat]

theorem decode_cons {a b c d : Char} {rest : List Char} (hd : d ≠ '=') :
    decode (a :: b :: c :: d :: rest) = (do
      let x ← value a
      let y ← value b
      let z ← value c
      let u ← value d
      let bytes ← decode rest
      some (UInt8.ofNat (x * 4 + y / 16) :: UInt8.ofNat (y % 16 * 16 + z / 4) ::
        UInt8.ofNat (z % 4 * 64 + u) :: bytes)) := by
  rw [decode]
  · rintro rfl rfl
    exact absurd rfl hd
  · rintro rfl
    exact absurd rfl hd

theorem decode_encode (bytes : List UInt8) : decode (encode bytes) = some bytes := by
  induction bytes using encode.induct with
  | case1 a b c rest ih =>
      have ha := a.toNat_lt
      have hb := b.toNat_lt
      have hc := c.toNat_lt
      have hfirst : UInt8.ofNat (a.toNat / 4 * 4 + (a.toNat % 4 * 16 + b.toNat / 16) / 16) = a :=
        ofNat_eq (by omega)
      have hsecond : UInt8.ofNat ((a.toNat % 4 * 16 + b.toNat / 16) % 16 * 16 +
          (b.toNat % 16 * 4 + c.toNat / 64) / 4) = b := ofNat_eq (by omega)
      have hthird : UInt8.ofNat ((b.toNat % 16 * 4 + c.toNat / 64) % 4 * 64 + c.toNat % 64) = c :=
        ofNat_eq (by omega)
      rw [encode, decode_cons (digit_ne (by omega)), value_digit (by omega), value_digit (by omega),
        value_digit (by omega), value_digit (by omega), ih]
      show some (_ :: _ :: _ :: rest) = _
      rw [hfirst, hsecond, hthird]
  | case2 a b =>
      have ha := a.toNat_lt
      have hb := b.toNat_lt
      have hfirst : UInt8.ofNat (a.toNat / 4 * 4 + (a.toNat % 4 * 16 + b.toNat / 16) / 16) = a :=
        ofNat_eq (by omega)
      have hsecond : UInt8.ofNat ((a.toNat % 4 * 16 + b.toNat / 16) % 16 * 16 +
          b.toNat % 16 * 4 / 4) = b := ofNat_eq (by omega)
      rw [encode, decode]
      · rw [value_digit (by omega), value_digit (by omega), value_digit (by omega)]
        show some [_, _] = _
        rw [hfirst, hsecond]
      · exact digit_ne (by omega)
  | case3 a =>
      have ha := a.toNat_lt
      have hfirst : UInt8.ofNat (a.toNat / 4 * 4 + a.toNat % 4 * 16 / 16) = a :=
        ofNat_eq (by omega)
      rw [encode, decode, value_digit (by omega), value_digit (by omega)]
      show some [_] = _
      rw [hfirst]
  | case4 => rfl

theorem strip_append {text : List Char} (h : '=' ∉ text) (n : Nat) :
    strip (text ++ List.replicate n '=') = text := by
  have hkeep : text.reverse.dropWhile (· = '=') = text.reverse := by
    cases hrev : text.reverse with
    | nil => rfl
    | cons c rest =>
        have hc : c ≠ '=' := by
          rintro rfl
          exact h (List.mem_reverse.mp (by rw [hrev]; exact List.mem_cons_self ..))
        rw [List.dropWhile_cons_of_neg (by simpa using hc)]
  have hdrop : ∀ rest : List Char, (List.replicate n '=' ++ rest).dropWhile (· = '=') =
      rest.dropWhile (· = '=') := by
    intro rest
    induction n with
    | zero => rfl
    | succ n ih =>
        rw [List.replicate_succ, List.cons_append, List.dropWhile_cons_of_pos (by simp), ih]
  rw [strip, List.reverse_append, List.reverse_replicate, hdrop, hkeep, List.reverse_reverse]

/-- The padding completes the last group. -/
theorem encode_eq_pad (bytes : List UInt8) :
    ∃ text n, encode bytes = text ++ List.replicate n '=' ∧ '=' ∉ text ∧
      n = (4 - text.length % 4) % 4 := by
  induction bytes using encode.induct with
  | case1 a b c rest ih =>
      have ha := a.toNat_lt
      have hb := b.toNat_lt
      have hc := c.toNat_lt
      obtain ⟨text, n, htext, hfree, hn⟩ := ih
      refine ⟨digit (a.toNat / 4) :: digit (a.toNat % 4 * 16 + b.toNat / 16) ::
        digit (b.toNat % 16 * 4 + c.toNat / 64) :: digit (c.toNat % 64) :: text, n, ?_, ?_, ?_⟩
      · rw [encode, htext]
        rfl
      · simp only [List.mem_cons, not_or]
        exact ⟨(digit_ne (by omega)).symm, (digit_ne (by omega)).symm, (digit_ne (by omega)).symm,
          (digit_ne (by omega)).symm, hfree⟩
      · simp only [List.length_cons]
        omega
  | case2 a b =>
      have ha := a.toNat_lt
      have hb := b.toNat_lt
      refine ⟨[digit (a.toNat / 4), digit (a.toNat % 4 * 16 + b.toNat / 16),
        digit (b.toNat % 16 * 4)], 1, rfl, ?_, rfl⟩
      simp only [List.mem_cons, List.not_mem_nil, or_false, not_or]
      exact ⟨(digit_ne (by omega)).symm, (digit_ne (by omega)).symm, (digit_ne (by omega)).symm⟩
  | case3 a =>
      have ha := a.toNat_lt
      refine ⟨[digit (a.toNat / 4), digit (a.toNat % 4 * 16)], 2, rfl, ?_, rfl⟩
      simp only [List.mem_cons, List.not_mem_nil, or_false, not_or]
      exact ⟨(digit_ne (by omega)).symm, (digit_ne (by omega)).symm⟩
  | case4 => exact ⟨[], 0, rfl, List.not_mem_nil, rfl⟩

/-- What has been encoded and stripped is decoded again. -/
theorem decode_pad_strip (bytes : List UInt8) : decode (pad (strip (encode bytes))) = some bytes := by
  obtain ⟨text, n, htext, hfree, hn⟩ := encode_eq_pad bytes
  have hpad : pad (strip (encode bytes)) = encode bytes := by
    rw [htext, strip_append hfree, pad, ← hn]
  rw [hpad, decode_encode]

theorem strip_encode_ne_nil {bytes : List UInt8} (h : bytes ≠ []) : strip (encode bytes) ≠ [] := by
  intro hnil
  have hdecode := decode_pad_strip bytes
  rw [hnil] at hdecode
  cases hdecode
  exact h rfl

end EnergyAgent.Lib.Base64
