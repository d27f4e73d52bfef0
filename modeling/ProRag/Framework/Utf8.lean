import Mathlib.Data.List.Basic

/-!
# Decoding UTF-8 as it arrives

A decoder takes one byte at a time, so that it does not see where a stream was cut.  Bytes that are no
encoding become replacement characters; a byte order mark at the start of the stream is dropped.
-/

namespace Framework

/-- The part of a character that has come so far: its value, the bytes to come, and the bounds of the next. -/
structure Utf8Pending where
  codePoint : Nat
  needed : Nat
  lower : Nat := 0x80
  upper : Nat := 0xbf
deriving DecidableEq

/-- A decoder between two bytes; `fresh` until a character has come out. -/
structure Utf8Decoder where
  pending : Option Utf8Pending := none
  fresh : Bool := true
deriving DecidableEq

namespace Utf8Decoder

def replacement : Char := Char.ofNat 0xfffd

def byteOrderMark : Char := Char.ofNat 0xfeff

/-- A character comes out. -/
def emit (d : Utf8Decoder) (c : Char) : List Char × Utf8Decoder :=
  (if d.fresh ∧ c = byteOrderMark then [] else [c], ⟨none, false⟩)

def lead (d : Utf8Decoder) (byte : Nat) : List Char × Utf8Decoder :=
  if byte ≤ 0x7f then d.emit (Char.ofNat byte)
  else if 0xc2 ≤ byte ∧ byte ≤ 0xdf then ([], { d with pending := some { codePoint := byte % 32, needed := 1 } })
  else if 0xe0 ≤ byte ∧ byte ≤ 0xef then
    ([], { d with pending := some { codePoint := byte % 16, needed := 2,
                                    lower := if byte = 0xe0 then 0xa0 else 0x80,
                                    upper := if byte = 0xed then 0x9f else 0xbf } })
  else if 0xf0 ≤ byte ∧ byte ≤ 0xf4 then
    ([], { d with pending := some { codePoint := byte % 8, needed := 3,
                                    lower := if byte = 0xf0 then 0x90 else 0x80,
                                    upper := if byte = 0xf4 then 0x8f else 0xbf } })
  else d.emit replacement

/-- One byte.  A byte that does not continue a character is read again as the first of the next. -/
def step (d : Utf8Decoder) (byte : UInt8) : List Char × Utf8Decoder :=
  match d.pending with
  | none => d.lead byte.toNat
  | some p =>
    if byte.toNat < p.lower ∨ p.upper < byte.toNat then
      let bad := d.emit replacement
      let next := bad.2.lead byte.toNat
      (bad.1 ++ next.1, next.2)
    else
      let codePoint := p.codePoint * 64 + byte.toNat % 64
      if p.needed = 1 then d.emit (Char.ofNat codePoint)
      else ([], { d with pending := some { codePoint := codePoint, needed := p.needed - 1 } })

def decode (d : Utf8Decoder) : List UInt8 → List Char × Utf8Decoder
  | [] => ([], d)
  | byte :: bytes =>
    let now := d.step byte
    let later := now.2.decode bytes
    (now.1 ++ later.1, later.2)

theorem decode_append (d : Utf8Decoder) (a b : List UInt8) :
    d.decode (a ++ b) = ((d.decode a).1 ++ ((d.decode a).2.decode b).1, ((d.decode a).2.decode b).2) := by
  induction a generalizing d with
  | nil => simp [decode]
  | cons byte a ih => simp [decode, ih]

end Utf8Decoder

def utf8Bytes (text : List Char) : List UInt8 := text.flatMap String.utf8EncodeChar

namespace Utf8Decoder

theorem decode_cons {d d' : Utf8Decoder} {byte : UInt8} {out : List Char} (hstep : d.step byte = (out, d'))
    (bytes : List UInt8) : d.decode (byte :: bytes) = (out ++ (d'.decode bytes).1, (d'.decode bytes).2) := by
  simp [decode, hstep]

theorem toNat_byte {n : Nat} (h : n < 256) : (UInt8.ofNat n).toNat = n := by
  rw [UInt8.toNat_ofNat']
  omega

theorem step_last {d : Utf8Decoder} {p : Utf8Pending} (hp : d.pending = some p) (hneeded : p.needed = 1) {n : Nat}
    (hn : n < 64) (hlower : p.lower ≤ n + 0x80) (hupper : n + 0x80 ≤ p.upper) :
    d.step (UInt8.ofNat (n + 0x80)) = d.emit (Char.ofNat (p.codePoint * 64 + n)) := by
  have hmod : (n + 0x80) % 64 = n := by omega
  simp only [step, hp, toNat_byte (show n + 0x80 < 256 by omega), hneeded, hmod, ↓reduceIte]
  rw [if_neg (by omega)]

theorem step_inner {d : Utf8Decoder} {p : Utf8Pending} (hp : d.pending = some p) {k : Nat} (hneeded : p.needed = k + 2) {n : Nat}
    (hn : n < 64) (hlower : p.lower ≤ n + 0x80) (hupper : n + 0x80 ≤ p.upper) :
    d.step (UInt8.ofNat (n + 0x80)) =
      ([], { d with pending := some { codePoint := p.codePoint * 64 + n, needed := k + 1 } }) := by
  have hmod : (n + 0x80) % 64 = n := by omega
  simp only [step, hp, toNat_byte (show n + 0x80 < 256 by omega), hneeded, hmod]
  rw [if_neg (by omega), if_neg (by omega)]
  rfl

theorem step_lead2 {d : Utf8Decoder} (hd : d.pending = none) {n : Nat} (hlow : 2 ≤ n) (hn : n < 32) :
    d.step (UInt8.ofNat (n + 0xc0)) = ([], { d with pending := some { codePoint := n, needed := 1 } }) := by
  have hmod : (n + 0xc0) % 32 = n := by omega
  simp only [step, hd, toNat_byte (show n + 0xc0 < 256 by omega), lead, hmod]
  rw [if_neg (by omega), if_pos (by omega)]

theorem step_lead3 {d : Utf8Decoder} (hd : d.pending = none) {n : Nat} (hn : n < 16) :
    d.step (UInt8.ofNat (n + 0xe0)) = ([], { d with pending := some ⟨n, 2, if n = 0 then 0xa0 else 0x80,
      if n = 13 then 0x9f else 0xbf⟩ }) := by
  have hmod : (n + 0xe0) % 16 = n := by omega
  have hzero : n + 0xe0 = 0xe0 ↔ n = 0 := by omega
  have hsurrogate : n + 0xe0 = 0xed ↔ n = 13 := by omega
  simp only [step, hd, toNat_byte (show n + 0xe0 < 256 by omega), lead, hmod, hzero, hsurrogate]
  rw [if_neg (by omega), if_neg (by omega), if_pos (by omega)]

theorem step_lead4 {d : Utf8Decoder} (hd : d.pending = none) {n : Nat} (hn : n < 5) :
    d.step (UInt8.ofNat (n + 0xf0)) = ([], { d with pending := some ⟨n, 3, if n = 0 then 0x90 else 0x80,
      if n = 4 then 0x8f else 0xbf⟩ }) := by
  have hmod : (n + 0xf0) % 8 = n := by omega
  have hzero : n + 0xf0 = 0xf0 ↔ n = 0 := by omega
  have hlast : n + 0xf0 = 0xf4 ↔ n = 4 := by omega
  simp only [step, hd, toNat_byte (show n + 0xf0 < 256 by omega), lead, hmod, hzero, hlast]
  rw [if_neg (by omega), if_neg (by omega), if_neg (by omega), if_pos (by omega)]

theorem decode_char {d : Utf8Decoder} (hd : d.pending = none) (c : Char) :
    d.decode (String.utf8EncodeChar c) = d.emit c := by
  have hvalid : c.toNat < 0xd800 ∨ (0xdfff < c.toNat ∧ c.toNat < 0x110000) := c.valid
  have hval : c.val.toNat = c.toNat := rfl
  have hemit : ∀ n, n = c.toNat → ((d.emit (Char.ofNat n)).1 ++ [], (d.emit (Char.ofNat n)).2) = d.emit c := by
    intro n hn
    rw [hn, Char.ofNat_toNat, List.append_nil]
  unfold String.utf8EncodeChar
  simp only [hval]
  by_cases h1 : c.toNat ≤ 0x7f
  · rw [if_pos h1]
    have hstep : d.step (UInt8.ofNat c.toNat) = d.emit (Char.ofNat c.toNat) := by
      simp only [step, hd, toNat_byte (show c.toNat < 256 by omega), lead, h1, ↓reduceIte]
    rw [decode_cons hstep]
    exact hemit _ rfl
  rw [if_neg h1]
  by_cases h2 : c.toNat ≤ 0x7ff
  · rw [if_pos h2, Nat.mod_eq_of_lt (show c.toNat / 64 < 0x20 by omega)]
    rw [decode_cons (step_lead2 hd (by omega) (by omega)),
      decode_cons (step_last rfl rfl (by omega) (by simp) (by simp; omega))]
    exact hemit _ (by simp only; omega)
  rw [if_neg h2]
  by_cases h3 : c.toNat ≤ 0xffff
  · rw [if_pos h3, Nat.mod_eq_of_lt (show c.toNat / 4096 < 0x10 by omega)]
    rw [decode_cons (step_lead3 hd (by omega)),
      decode_cons (step_inner rfl rfl (by omega) (by simp only; split <;> omega) (by simp only; split <;> omega)),
      decode_cons (step_last rfl rfl (by omega) (by simp) (by simp; omega))]
    exact hemit _ (by simp only; omega)
  · rw [if_neg h3, Nat.mod_eq_of_lt (show c.toNat / 262144 < 0x8 by omega)]
    rw [decode_cons (step_lead4 hd (by omega)),
      decode_cons (step_inner rfl rfl (by omega) (by simp only; split <;> omega) (by simp only; split <;> omega)),
      decode_cons (step_inner rfl rfl (by omega) (by simp) (by simp; omega)),
      decode_cons (step_last rfl rfl (by omega) (by simp) (by simp; omega))]
    exact hemit _ (by simp only; omega)

theorem decode_utf8Bytes {d : Utf8Decoder} (hd : d = ⟨none, false⟩) (text : List Char) :
    d.decode (utf8Bytes text) = (text, d) := by
  induction text with
  | nil => rfl
  | cons c text ih =>
    have hchar : d.decode (String.utf8EncodeChar c) = ([c], d) := by
      rw [decode_char (by rw [hd]) c, hd]
      rfl
    unfold utf8Bytes at ih ⊢
    rw [List.flatMap_cons, decode_append, hchar, ih]
    rfl

/-- A stream that does not begin with the byte order mark comes back whole. -/
theorem decode_stream (text : List Char) (hmark : text.head? ≠ some byteOrderMark) :
    (({} : Utf8Decoder).decode (utf8Bytes text)).1 = text := by
  cases text with
  | nil => rfl
  | cons c text =>
    have hc : c ≠ byteOrderMark := fun h => hmark (congrArg some h)
    have hchar : ({} : Utf8Decoder).decode (String.utf8EncodeChar c) = ([c], ⟨none, false⟩) := by
      rw [decode_char rfl c]
      simp [emit, hc]
    have hrest := decode_utf8Bytes rfl text
    unfold utf8Bytes at hrest ⊢
    rw [List.flatMap_cons, decode_append, hchar, hrest]
    rfl

end Utf8Decoder

end Framework
