import Mathlib.Data.List.Basic
import Mathlib.Tactic.Common

/-!
# `PublicPool.Lib.Utf8`: a UTF-8 decoder that replaces what is malformed

Lean's own decoder rejects malformed bytes. Runtimes that must always give a text decode
byte by byte instead, and put a replacement character for every maximal run of bytes that
begins a character and does not complete it. `decode` is this decoder: `Pending` is what it
keeps between the bytes of one character, with the bounds that the next byte must be in, so
that overlong forms and surrogates never get started.

`decode_encode` says that it gives back every text that `String.utf8EncodeChar` encodes.
-/

set_option autoImplicit false

namespace PublicPool.Lib.Utf8

/-- U+FFFD. -/
def replacement : Char := Char.ofNat 0xfffd

/-- A character of which some bytes are still missing. -/
structure Pending where
  /-- How many. -/
  needed : ℕ
  codePoint : ℕ
  /-- The bounds of the next byte. -/
  lower : ℕ
  upper : ℕ

/-- What a byte at the start of a character gives: a character, or the beginning of one. -/
def lead (b : ℕ) : Char ⊕ Pending :=
  if b ≤ 0x7f then .inl (Char.ofNat b)
  else if 0xc2 ≤ b ∧ b ≤ 0xdf then .inr ⟨1, b % 0x20, 0x80, 0xbf⟩
  else if b = 0xe0 then .inr ⟨2, 0, 0xa0, 0xbf⟩
  else if b = 0xed then .inr ⟨2, 0xd, 0x80, 0x9f⟩
  else if 0xe1 ≤ b ∧ b ≤ 0xef then .inr ⟨2, b % 0x10, 0x80, 0xbf⟩
  else if b = 0xf0 then .inr ⟨3, 0, 0x90, 0xbf⟩
  else if 0xf1 ≤ b ∧ b ≤ 0xf3 then .inr ⟨3, b % 8, 0x80, 0xbf⟩
  else if b = 0xf4 then .inr ⟨3, 4, 0x80, 0x8f⟩
  else .inl replacement

/-- The characters of some bytes, after the beginning of one. -/
def decodeFrom : Option Pending → List UInt8 → List Char
  | none, [] => []
  | some _, [] => [replacement]
  | none, b :: bytes =>
    match lead b.toNat with
    | .inl c => c :: decodeFrom none bytes
    | .inr p => decodeFrom (some p) bytes
  | some p, b :: bytes =>
    if p.lower ≤ b.toNat ∧ b.toNat ≤ p.upper then
      let codePoint := p.codePoint * 64 + b.toNat % 64
      if p.needed = 1 then Char.ofNat codePoint :: decodeFrom none bytes
      else decodeFrom (some ⟨p.needed - 1, codePoint, 0x80, 0xbf⟩) bytes
    else
      -- The byte does not continue the character: it is looked at again as a first one.
      match lead b.toNat with
      | .inl c => replacement :: c :: decodeFrom none bytes
      | .inr p => replacement :: decodeFrom (some p) bytes

def decode (bytes : List UInt8) : List Char := decodeFrom none bytes

def encode (text : List Char) : List UInt8 := text.flatMap String.utf8EncodeChar

/-! ### The round trip -/

section
variable {b codePoint lower upper x : ℕ}

theorem decodeFrom_lead (hb : b < 256) {p : Pending} (h : lead b = .inr p) (bytes : List UInt8) :
    decodeFrom none (UInt8.ofNat b :: bytes) = decodeFrom (some p) bytes := by
  have hnat : (UInt8.ofNat b).toNat = b := by
    rw [UInt8.toNat_ofNat', Nat.mod_eq_of_lt hb]
  simp only [decodeFrom, hnat, h]

/-- A byte that continues a character and leaves more to come. -/
theorem decodeFrom_more {needed : ℕ} (hb : b < 256) (hbounds : lower ≤ b ∧ b ≤ upper)
    (bytes : List UInt8) :
    decodeFrom (some ⟨needed + 2, codePoint, lower, upper⟩) (UInt8.ofNat b :: bytes) =
      decodeFrom (some ⟨needed + 1, codePoint * 64 + b % 64, 0x80, 0xbf⟩) bytes := by
  have hnat : (UInt8.ofNat b).toNat = b := by
    rw [UInt8.toNat_ofNat', Nat.mod_eq_of_lt hb]
  simp [decodeFrom, hnat, hbounds]

/-- A byte that completes a character. -/
theorem decodeFrom_last (hb : b < 256) (hbounds : lower ≤ b ∧ b ≤ upper) (bytes : List UInt8) :
    decodeFrom (some ⟨1, codePoint, lower, upper⟩) (UInt8.ofNat b :: bytes) =
      Char.ofNat (codePoint * 64 + b % 64) :: decodeFrom none bytes := by
  have hnat : (UInt8.ofNat b).toNat = b := by
    rw [UInt8.toNat_ofNat', Nat.mod_eq_of_lt hb]
  simp [decodeFrom, hnat, hbounds]

theorem lead_two (hb : 0xc2 ≤ b ∧ b ≤ 0xdf) : lead b = .inr ⟨1, b % 0x20, 0x80, 0xbf⟩ := by
  rw [lead, if_neg (by omega), if_pos hb]

/-- The first of three bytes bounds the second one when it could begin an overlong form or a
surrogate. -/
theorem lead_three (hb : 0xe0 ≤ b ∧ b ≤ 0xef) (hx : 0x80 ≤ x ∧ x ≤ 0xbf)
    (hoverlong : b = 0xe0 → 0xa0 ≤ x) (hsurrogate : b = 0xed → x ≤ 0x9f) :
    ∃ lower upper, lead b = .inr ⟨2, b % 0x10, lower, upper⟩ ∧ lower ≤ x ∧ x ≤ upper := by
  rw [lead, if_neg (by omega), if_neg (by omega)]
  by_cases he0 : b = 0xe0
  · subst he0
    exact ⟨0xa0, 0xbf, rfl, hoverlong rfl, hx.2⟩
  rw [if_neg he0]
  by_cases hed : b = 0xed
  · subst hed
    exact ⟨0x80, 0x9f, rfl, hx.1, hsurrogate rfl⟩
  rw [if_neg hed, if_pos (by omega)]
  exact ⟨0x80, 0xbf, rfl, hx⟩

/-- The first of four bytes bounds the second one when it could begin an overlong form or
leave the code space. -/
theorem lead_four (hb : 0xf0 ≤ b ∧ b ≤ 0xf4) (hx : 0x80 ≤ x ∧ x ≤ 0xbf)
    (hoverlong : b = 0xf0 → 0x90 ≤ x) (hend : b = 0xf4 → x ≤ 0x8f) :
    ∃ lower upper, lead b = .inr ⟨3, b % 8, lower, upper⟩ ∧ lower ≤ x ∧ x ≤ upper := by
  rw [lead, if_neg (by omega), if_neg (by omega), if_neg (by omega), if_neg (by omega),
    if_neg (by omega)]
  by_cases hf0 : b = 0xf0
  · subst hf0
    exact ⟨0x90, 0xbf, rfl, hoverlong rfl, hx.2⟩
  rw [if_neg hf0]
  by_cases hf4 : b = 0xf4
  · subst hf4
    exact ⟨0x80, 0x8f, rfl, hx.1, hend rfl⟩
  rw [if_pos (by omega)]
  exact ⟨0x80, 0xbf, rfl, hx⟩

end

theorem decodeFrom_encodeChar (c : Char) (bytes : List UInt8) :
    decodeFrom none (String.utf8EncodeChar c ++ bytes) = c :: decodeFrom none bytes := by
  have hvalid : c.toNat < 0xd800 ∨ 0xdfff < c.toNat ∧ c.toNat < 0x110000 := c.valid
  have hchar : Char.ofNat c.toNat = c := Char.ofNat_toNat c
  -- One case for each length of the encoding.
  have hval : c.val.toNat = c.toNat := rfl
  rw [String.utf8EncodeChar, hval]
  generalize c.toNat = n at hvalid hchar
  by_cases h₁ : n ≤ 0x7f
  · rw [if_pos h₁]
    have hnat : (UInt8.ofNat n).toNat = n := by
      rw [UInt8.toNat_ofNat', Nat.mod_eq_of_lt (by omega)]
    have hlead : lead n = .inl (Char.ofNat n) := by rw [lead, if_pos h₁]
    simp only [List.cons_append, List.nil_append, decodeFrom, hnat, hlead, hchar]
  rw [if_neg h₁]
  by_cases h₂ : n ≤ 0x7ff
  · rw [if_pos h₂]
    simp only [List.cons_append, List.nil_append]
    rw [decodeFrom_lead (by omega) (lead_two (by omega)),
      decodeFrom_last (by omega) (by omega), ← hchar]
    congr 2
    omega
  rw [if_neg h₂]
  by_cases h₃ : n ≤ 0xffff
  · rw [if_pos h₃]
    simp only [List.cons_append, List.nil_append]
    obtain ⟨lower, upper, hlead, hbounds⟩ :=
      lead_three (b := n / 4096 % 16 + 0xe0) (x := n / 64 % 64 + 0x80) (by omega) (by omega)
        (by omega) (by omega)
    rw [decodeFrom_lead (by omega) hlead, decodeFrom_more (by omega) hbounds,
      decodeFrom_last (by omega) (by omega), ← hchar]
    congr 2
    omega
  · rw [if_neg h₃]
    simp only [List.cons_append, List.nil_append]
    obtain ⟨lower, upper, hlead, hbounds⟩ :=
      lead_four (b := n / 262144 % 8 + 0xf0) (x := n / 4096 % 64 + 0x80) (by omega) (by omega)
        (by omega) (by omega)
    rw [decodeFrom_lead (by omega) hlead, decodeFrom_more (by omega) hbounds,
      decodeFrom_more (by omega) (by omega), decodeFrom_last (by omega) (by omega), ← hchar]
    congr 2
    omega

/-- What is encoded is decoded. -/
theorem decode_encode (text : List Char) : decode (encode text) = text := by
  induction text with
  | nil => rfl
  | cons c text ih =>
    show decodeFrom none (String.utf8EncodeChar c ++ encode text) = _
    rw [decodeFrom_encodeChar]
    exact congrArg (c :: ·) ih

end PublicPool.Lib.Utf8
