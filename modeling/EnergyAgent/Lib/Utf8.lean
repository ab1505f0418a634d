import Mathlib.Data.List.Basic

/-!
# UTF-8, byte by byte

`encode` writes a text, and `step` is the decoder of the Encoding Standard on one byte: a byte that
belongs to no character becomes U+FFFD. The decoder keeps its state between chunks, so how bytes
are cut into chunks changes nothing (`decode_append`). The first bytes of a text decode to the
characters that are complete in them (`decode_isPrefix`).
-/

namespace EnergyAgent.Lib.Utf8

def encodeChar (c : Char) : List UInt8 := String.utf8EncodeChar c

def encode (text : List Char) : List UInt8 := text.flatMap encodeChar

@[simp] theorem encode_nil : encode [] = [] := rfl

@[simp] theorem encode_cons (c : Char) (text : List Char) :
    encode (c :: text) = encodeChar c ++ encode text := rfl

@[simp] theorem encode_append (s t : List Char) : encode (s ++ t) = encode s ++ encode t :=
  List.flatMap_append

/-- The character whose bytes have begun, how many of them are still to come (`needed`), and the
bounds of the next one. -/
structure Decoder where
  codePoint : Nat := 0
  needed : Nat := 0
  lower : Nat := 0x80
  upper : Nat := 0xbf
  deriving DecidableEq, Repr

def replacement : Char := '\uFFFD'

/-- A byte with which a character begins. -/
def start (byte : Nat) : Decoder × List Char :=
  if byte ≤ 0x7f then ({}, [Char.ofNat byte])
  else if 0xc2 ≤ byte ∧ byte ≤ 0xdf then ({ codePoint := byte % 0x20, needed := 1 }, [])
  else if 0xe0 ≤ byte ∧ byte ≤ 0xef then
    -- Neither an overlong form nor a surrogate.
    ({ codePoint := byte % 0x10
       needed := 2
       lower := if byte = 0xe0 then 0xa0 else 0x80
       upper := if byte = 0xed then 0x9f else 0xbf }, [])
  else if 0xf0 ≤ byte ∧ byte ≤ 0xf4 then
    ({ codePoint := byte % 0x08
       needed := 3
       lower := if byte = 0xf0 then 0x90 else 0x80
       upper := if byte = 0xf4 then 0x8f else 0xbf }, [])
  else ({}, [replacement])

/-- One byte: the decoder after it, and the characters that it completes. -/
def step (decoder : Decoder) (byte : UInt8) : Decoder × List Char :=
  let n := byte.toNat
  if decoder.needed = 0 then start n
  else if n < decoder.lower ∨ decoder.upper < n then
    -- The character is given up, and the byte is read again.
    ((start n).1, replacement :: (start n).2)
  else
    let codePoint := decoder.codePoint * 0x40 + n % 0x40
    if decoder.needed = 1 then ({}, [Char.ofNat codePoint])
    else ({ codePoint, needed := decoder.needed - 1 }, [])

def decode (decoder : Decoder) : List UInt8 → Decoder × List Char
  | [] => (decoder, [])
  | byte :: bytes =>
      let here := step decoder byte
      let rest := decode here.1 bytes
      (rest.1, here.2 ++ rest.2)

/-- The end of the bytes. -/
def flush (decoder : Decoder) : List Char := if decoder.needed = 0 then [] else [replacement]

/-- What has been decoded does not depend on how the bytes are cut. -/
theorem decode_append (decoder : Decoder) (s t : List UInt8) :
    decode decoder (s ++ t) =
      ((decode (decode decoder s).1 t).1, (decode decoder s).2 ++ (decode (decode decoder s).1 t).2) := by
  induction s generalizing decoder with
  | nil => rfl
  | cons byte s ih => simp only [List.cons_append, decode, ih, List.append_assoc]

/-! ## The bytes of one character -/

/-- The bytes complete the character, and none before the last one does. -/
inductive Reads : Decoder → List UInt8 → Char → Prop
  | last {decoder : Decoder} {byte : UInt8} {c : Char} :
      step decoder byte = ({}, [c]) → Reads decoder [byte] c
  | more {decoder next : Decoder} {byte : UInt8} {bytes : List UInt8} {c : Char} :
      step decoder byte = (next, []) → Reads next bytes c →
      Reads decoder (byte :: bytes) c

theorem Reads.decode {decoder : Decoder} {bytes : List UInt8} {c : Char}
    (h : Reads decoder bytes c) : decode decoder bytes = ({}, [c]) := by
  induction h with
  | last hstep => simp [Utf8.decode, hstep]
  | more hstep _ ih => simp [Utf8.decode, hstep, ih]

/-- Before the last byte nothing is handed out. -/
theorem Reads.begun {decoder : Decoder} {bytes : List UInt8} {c : Char} (h : Reads decoder bytes c)
    {first rest : List UInt8} (hcut : first ++ rest = bytes) (hrest : rest ≠ []) :
    (Utf8.decode decoder first).2 = [] := by
  induction h generalizing first with
  | last _ =>
      cases first with
      | nil => rfl
      | cons byte first =>
          simp only [List.cons_append, List.cons.injEq, List.append_eq_nil_iff] at hcut
          exact absurd hcut.2.2 hrest
  | more hstep _ ih =>
      cases first with
      | nil => rfl
      | cons byte first =>
          obtain ⟨hbyte, hcut⟩ := List.cons.inj hcut
          rw [hbyte, Utf8.decode, hstep]
          exact ih hcut

theorem toNat_ofNat {n : Nat} (hn : n < 0x100) : (UInt8.ofNat n).toNat = n := by
  rw [UInt8.toNat_ofNat']
  omega

/-- Between two characters a byte is read as a first one. -/
theorem step_first {n : Nat} (hn : n < 0x100) : step {} (UInt8.ofNat n) = start n := by
  show start (UInt8.ofNat n).toNat = start n
  rw [toNat_ofNat hn]

/-- A byte that follows the first one. -/
theorem step_next {codePoint needed lower upper n : Nat} (hneeded : needed ≠ 0) (hn : n < 0x40)
    (hlower : lower ≤ n + 0x80) (hupper : n + 0x80 ≤ upper) :
    step ⟨codePoint, needed, lower, upper⟩ (UInt8.ofNat (n + 0x80)) =
      if needed = 1 then ({}, [Char.ofNat (codePoint * 0x40 + n)])
      else ({ codePoint := codePoint * 0x40 + n, needed := needed - 1 }, []) := by
  have hbyte : (UInt8.ofNat (n + 0x80)).toNat = n + 0x80 := toNat_ofNat (by omega)
  have hlow : (n + 0x80) % 0x40 = n := by omega
  have hbounds : ¬ (n + 0x80 < lower ∨ upper < n + 0x80) := by omega
  simp only [step, hbyte, hlow, if_neg hneeded, if_neg hbounds]

/-- The last byte of a character. -/
theorem reads_last {codePoint lower upper n : Nat} {c : Char} (hn : n < 0x40)
    (hlower : lower ≤ n + 0x80) (hupper : n + 0x80 ≤ upper)
    (hc : Char.ofNat (codePoint * 0x40 + n) = c) :
    Reads ⟨codePoint, 1, lower, upper⟩ [UInt8.ofNat (n + 0x80)] c := by
  refine .last ?_
  rw [step_next Nat.one_ne_zero hn hlower hupper, if_pos rfl, hc]

/-- A byte of a character that is neither the first nor the last one. -/
theorem reads_next {codePoint needed lower upper n : Nat} {bytes : List UInt8} {c : Char}
    (hn : n < 0x40) (hlower : lower ≤ n + 0x80) (hupper : n + 0x80 ≤ upper)
    (h : Reads ⟨codePoint * 0x40 + n, needed + 1, 0x80, 0xbf⟩ bytes c) :
    Reads ⟨codePoint, needed + 2, lower, upper⟩ (UInt8.ofNat (n + 0x80) :: bytes) c := by
  refine .more ?_ h
  rw [step_next (Nat.succ_ne_zero _) hn hlower hupper, if_neg (by omega)]
  rfl

/-- The code points of the characters are those that are not surrogates. -/
theorem val_spec (c : Char) :
    c.val.toNat < 0xd800 ∨ 0xdfff < c.val.toNat ∧ c.val.toNat < 0x110000 := c.valid

theorem reads_encodeChar (c : Char) : Reads {} (encodeChar c) c := by
  have hvalid := val_spec c
  have hc : Char.ofNat c.val.toNat = c := Char.ofNat_toNat c
  generalize hv : c.val.toNat = v at *
  simp only [encodeChar, String.utf8EncodeChar, hv]
  by_cases hone : v ≤ 0x7f
  · rw [if_pos hone]
    refine .last ?_
    rw [step_first (by omega), start, if_pos hone, hc]
  rw [if_neg hone]
  by_cases htwo : v ≤ 0x7ff
  · rw [if_pos htwo]
    have hfirst : step {} (UInt8.ofNat (v / 64 % 0x20 + 0xc0)) =
        (⟨v / 64, 1, 0x80, 0xbf⟩, []) := by
      have hlow : (v / 64 % 0x20 + 0xc0) % 0x20 = v / 64 := by omega
      rw [step_first (by omega), start, if_neg (by omega), if_pos (by omega), hlow]
    refine .more hfirst (reads_last (by omega) (by omega) (by omega) ?_)
    rw [← hc]
    congr 1
    omega
  rw [if_neg htwo]
  by_cases hthree : v ≤ 0xffff
  · rw [if_pos hthree]
    have hfirst : step {} (UInt8.ofNat (v / 4096 % 0x10 + 0xe0)) =
        (⟨v / 4096, 2, if v / 4096 = 0 then 0xa0 else 0x80, if v / 4096 = 13 then 0x9f else 0xbf⟩,
          []) := by
      have hlow : (v / 4096 % 0x10 + 0xe0) % 0x10 = v / 4096 := by omega
      have hmin : v / 4096 % 0x10 + 0xe0 = 0xe0 ↔ v / 4096 = 0 := by omega
      have hmax : v / 4096 % 0x10 + 0xe0 = 0xed ↔ v / 4096 = 13 := by omega
      rw [step_first (by omega), start, if_neg (by omega), if_neg (by omega), if_pos (by omega), hlow]
      simp only [hmin, hmax]
    refine .more hfirst (reads_next (by omega) ?_ ?_
      (reads_last (by omega) (by omega) (by omega) ?_))
    · split <;> omega
    · split <;> omega
    · rw [← hc]
      congr 1
      omega
  · rw [if_neg hthree]
    have hfirst : step {} (UInt8.ofNat (v / 262144 % 0x08 + 0xf0)) =
        (⟨v / 262144, 3, if v / 262144 = 0 then 0x90 else 0x80,
          if v / 262144 = 4 then 0x8f else 0xbf⟩, []) := by
      have hlow : (v / 262144 % 0x08 + 0xf0) % 0x08 = v / 262144 := by omega
      have hmin : v / 262144 % 0x08 + 0xf0 = 0xf0 ↔ v / 262144 = 0 := by omega
      have hmax : v / 262144 % 0x08 + 0xf0 = 0xf4 ↔ v / 262144 = 4 := by omega
      rw [step_first (by omega), start, if_neg (by omega), if_neg (by omega), if_neg (by omega),
        if_pos (by omega), hlow]
      simp only [hmin, hmax]
    refine .more hfirst (reads_next (by omega) ?_ ?_
      (reads_next (by omega) (by omega) (by omega) (reads_last (by omega) (by omega) (by omega) ?_)))
    · split <;> omega
    · split <;> omega
    · rw [← hc]
      congr 1
      omega

/-! ## The bytes of a text -/

theorem decode_encode (text : List Char) : decode {} (encode text) = ({}, text) := by
  induction text with
  | nil => rfl
  | cons c text ih => rw [encode_cons, decode_append, (reads_encodeChar c).decode, ih]; rfl

/-- Not all bytes of a text: not all its characters, and no others. -/
theorem decode_prefix {bytes rest : List UInt8} {text : List Char}
    (h : bytes ++ rest = encode text) (hrest : rest ≠ []) :
    ∃ later, later ≠ [] ∧ text = (decode {} bytes).2 ++ later := by
  induction text generalizing bytes with
  | nil => exact absurd (List.append_eq_nil_iff.mp h).2 hrest
  | cons c text ih =>
      have hbehind : ∀ more, more ++ rest = encode text →
          ∃ later, later ≠ [] ∧ c :: text = (decode {} (encodeChar c ++ more)).2 ++ later := by
        intro more hmore
        obtain ⟨later, hlater, htext⟩ := ih hmore
        rw [decode_append, (reads_encodeChar c).decode]
        exact ⟨later, hlater, congrArg (c :: ·) htext⟩
      rw [encode_cons] at h
      rcases List.append_eq_append_iff.mp h with ⟨more, hchar, hmore⟩ | ⟨more, rfl, hmore⟩
      · by_cases hnone : more = []
        · subst hnone
          rw [List.append_nil] at hchar
          have hall := hbehind [] hmore
          rwa [hchar, List.append_nil] at hall
        · -- The bytes end within the first character.
          have hbegun := (reads_encodeChar c).begun hchar.symm hnone
          exact ⟨c :: text, List.cons_ne_nil _ _, by rw [hbegun, List.nil_append]⟩
      · exact hbehind more hmore.symm

theorem decode_isPrefix {bytes rest : List UInt8} {text : List Char}
    (h : bytes ++ rest = encode text) : (decode {} bytes).2 <+: text := by
  by_cases hrest : rest = []
  · rw [hrest, List.append_nil] at h
    have hdecoded : (decode {} bytes).2 = text := by rw [h, decode_encode]
    exact hdecoded ▸ List.prefix_rfl
  · obtain ⟨later, -, htext⟩ := decode_prefix h hrest
    exact ⟨later, htext.symm⟩

end EnergyAgent.Lib.Utf8
