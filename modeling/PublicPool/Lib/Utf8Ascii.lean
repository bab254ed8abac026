import PublicPool.Lib.Utf8Pieces
import Mathlib.Tactic.NormNum

/-!
# `PublicPool.Lib.Utf8Ascii`: ASCII words in a decoded text

A decoder that replaces what is malformed still keeps ASCII apart from the rest. A byte below
`0x80` is a character of its own in every state of the decoder (`nextByte_ascii`), and all other
bytes make up characters from `0x80` on, the replacement character among them
(`wide_of_nextByte`). So a word of ASCII characters stands in the text where its bytes stand
(`isInfix_decode_iff`), malformed bytes or not.

The second fact needs that a character that is complete is a character: `Pending.Wide` bounds the
code points that a beginning can still lead to, clear of the surrogates.
-/

set_option autoImplicit false

namespace PublicPool.Lib.Utf8

/-- A byte of an ASCII character. -/
def IsAscii (b : UInt8) : Prop := b.toNat < 0x80

instance : DecidablePred IsAscii := fun b => inferInstanceAs (Decidable (b.toNat < 0x80))

/-- The character of a byte. -/
def asChar (b : UInt8) : Char := Char.ofNat b.toNat

theorem toNat_ofNat_of_valid {n : ℕ} (h : n < 0xd800 ∨ 0xdfff < n ∧ n < 0x110000) :
    (Char.ofNat n).toNat = n := by
  have hvalid : n.isValidChar := h
  rw [Char.ofNat, dif_pos hvalid]
  rfl

section
variable {b : UInt8} {p : Pending} {s : Option Pending}

theorem toNat_asChar (hb : IsAscii b) : (asChar b).toNat = b.toNat :=
  toNat_ofNat_of_valid (Or.inl (Nat.lt_trans hb (by decide)))

theorem asChar_inj {b' : UInt8} (hb : IsAscii b) (hb' : IsAscii b') (h : asChar b = asChar b') :
    b = b' := by
  have hnat : b.toNat = b'.toNat := by rw [← toNat_asChar hb, ← toNat_asChar hb', h]
  exact UInt8.toNat_inj.mp hnat

/-! ### What a byte adds -/

/-- Whatever completes the character, its code point is no ASCII and no surrogate. -/
structure Pending.Wide (p : Pending) : Prop where
  lower : 0x80 ≤ p.lower
  upper : p.upper ≤ 0xbf
  needed : p.needed = 1 ∨ p.needed = 2 ∨ p.needed = 3
  wide : 0x80 ≤ (p.codePoint * 64 + p.lower % 64) * 64 ^ (p.needed - 1)
  valid : (p.codePoint * 64 + p.upper % 64 + 1) * 64 ^ (p.needed - 1) ≤ 0xd800 ∨
    0xdfff < (p.codePoint * 64 + p.lower % 64) * 64 ^ (p.needed - 1) ∧
      (p.codePoint * 64 + p.upper % 64 + 1) * 64 ^ (p.needed - 1) ≤ 0x110000

theorem wide_of_lead {b : ℕ} (h : lead b = .inr p) : p.Wide := by
  simp only [lead] at h
  split_ifs at h <;> cases h <;> constructor <;> norm_num <;> omega

theorem Pending.Wide.mod_bounds (hp : p.Wide) (hb : p.Accepts b) :
    p.lower % 64 ≤ b.toNat % 64 ∧ b.toNat % 64 ≤ p.upper % 64 := by
  have hlower := hp.lower
  have hupper := hp.upper
  obtain ⟨hlow, hhigh⟩ := hb
  omega

/-- A byte goes on with the character and does not complete it. -/
theorem Pending.Wide.next {p : Pending} (hp : p.Wide) {b : UInt8} (hb : p.Accepts b)
    (hmore : p.needed ≠ 1) :
    Pending.Wide ⟨p.needed - 1, p.codePoint * 64 + b.toNat % 64, 0x80, 0xbf⟩ := by
  have hneeded := hp.needed
  have hwide := hp.wide
  have hvalid := hp.valid
  obtain ⟨hlow, hhigh⟩ := hp.mod_bounds hb
  have hleast : p.codePoint * 64 + p.lower % 64 ≤ p.codePoint * 64 + b.toNat % 64 :=
    Nat.add_le_add_left hlow _
  have hmost : p.codePoint * 64 + b.toNat % 64 + 1 ≤ p.codePoint * 64 + p.upper % 64 + 1 :=
    Nat.succ_le_succ (Nat.add_le_add_left hhigh _)
  clear hlow hhigh hb
  generalize p.codePoint * 64 + p.lower % 64 = least,
    p.codePoint * 64 + p.upper % 64 + 1 = most,
    p.codePoint * 64 + b.toNat % 64 = code at *
  rcases hneeded with hone | htwo | hthree
  · exact absurd hone hmore
  · rw [htwo] at hwide hvalid ⊢
    norm_num at hwide hvalid
    constructor <;> norm_num <;> omega
  · rw [hthree] at hwide hvalid ⊢
    norm_num at hwide hvalid
    constructor <;> norm_num <;> omega

/-- A byte completes the character. -/
theorem Pending.Wide.last (hp : p.Wide) (hb : p.Accepts b) (hlast : p.needed = 1) :
    0x80 ≤ (Char.ofNat (p.codePoint * 64 + b.toNat % 64)).toNat := by
  have hwide := hp.wide
  have hvalid := hp.valid
  obtain ⟨hlow, hhigh⟩ := hp.mod_bounds hb
  rw [hlast] at hwide hvalid
  norm_num at hwide hvalid
  have hchar : p.codePoint * 64 + b.toNat % 64 < 0xd800 ∨
      0xdfff < p.codePoint * 64 + b.toNat % 64 ∧
        p.codePoint * 64 + b.toNat % 64 < 0x110000 := by omega
  rw [toNat_ofNat_of_valid hchar]
  omega

/-- A byte that is no ASCII adds no ASCII. -/
theorem wide_of_nextByte (hs : ∀ p ∈ s, p.Wide) (hb : ¬ IsAscii b) :
    (∀ c ∈ (nextByte s b).1, 0x80 ≤ c.toNat) ∧ ∀ p ∈ (nextByte s b).2, p.Wide := by
  have hreplacement : 0x80 ≤ replacement.toNat := by decide
  have hfirst : (∀ c ∈ (firstByte b).1, 0x80 ≤ c.toNat) ∧ ∀ p ∈ (firstByte b).2, p.Wide := by
    rw [firstByte]
    cases hlead : lead b.toNat with
    | inl c =>
      have hc : c = replacement := by
        have hhigh : ¬ b.toNat ≤ 0x7f := fun hlow => hb (Nat.lt_succ_of_le hlow)
        simp only [lead, if_neg hhigh] at hlead
        split_ifs at hlead
        cases hlead
        rfl
      subst hc
      exact ⟨by simpa using hreplacement, by simp⟩
    | inr p => exact ⟨by simp, by simpa using wide_of_lead hlead⟩
  cases s with
  | none => exact hfirst
  | some q =>
    have hq : q.Wide := hs q rfl
    rw [nextByte]
    split
    · rename_i haccepts
      split
      · rename_i hlast
        exact ⟨by simpa using hq.last haccepts hlast, by simp⟩
      · rename_i hmore
        exact ⟨by simp, by simpa using hq.next haccepts hmore⟩
    · refine ⟨?_, hfirst.2⟩
      intro c hc
      rcases List.mem_cons.mp hc with rfl | hc
      · exact hreplacement
      · exact hfirst.1 c hc

/-- An ASCII byte is a character, after the replacement of the one that it breaks off. -/
theorem nextByte_ascii (hs : ∀ p ∈ s, p.Wide) (hb : IsAscii b) :
    nextByte s b = (s.toList.map (fun _ => replacement) ++ [asChar b], none) := by
  have hfirst : firstByte b = ([asChar b], none) := by
    rw [firstByte, lead, if_pos (Nat.le_of_lt_succ hb)]
    rfl
  cases s with
  | none => exact hfirst
  | some p =>
    have hrefused : ¬ p.Accepts b := by
      intro haccepts
      have hlow : 0x80 ≤ b.toNat := Nat.le_trans (hs p rfl).lower haccepts.1
      exact Nat.not_lt.mpr hlow hb
    rw [nextByte, if_neg hrefused, hfirst]
    rfl

end

/-! ### ASCII words -/

section
variable {word : List UInt8} {s : Option Pending}

/-- An unfinished character gives one that is no ASCII, whatever follows. -/
theorem decodeFrom_some_cons {p : Pending} (hp : p.Wide) (bytes : List UInt8) :
    ∃ c text, decodeFrom (some p) bytes = c :: text ∧ 0x80 ≤ c.toNat := by
  induction bytes generalizing p with
  | nil => exact ⟨replacement, [], rfl, by decide⟩
  | cons b bytes ih =>
    rw [decodeFrom_cons, nextByte]
    split
    · rename_i haccepts
      split
      · rename_i hlast
        exact ⟨_, _, rfl, hp.last haccepts hlast⟩
      · rename_i hmore
        exact ih (hp.next haccepts hmore)
    · exact ⟨replacement, _, rfl, by decide⟩

theorem ne_asChar {b : UInt8} (hb : IsAscii b) {c : Char} (hc : 0x80 ≤ c.toNat) :
    asChar b ≠ c := by
  rintro rfl
  rw [toNat_asChar hb] at hc
  exact Nat.not_lt.mpr hc hb

/-- A word stands at the start of a text where its bytes do. -/
theorem isPrefix_decode_iff (hword : ∀ b ∈ word, IsAscii b) (bytes : List UInt8) :
    word.map asChar <+: decodeFrom none bytes ↔ word <+: bytes := by
  induction word generalizing bytes with
  | nil => simp
  | cons w word ih =>
    have hw : IsAscii w := hword w List.mem_cons_self
    have hrest : ∀ b ∈ word, IsAscii b := fun b hb => hword b (List.mem_cons_of_mem w hb)
    cases bytes with
    | nil => simp [decodeFrom]
    | cons b bytes =>
      rw [List.map_cons, List.cons_prefix_cons]
      by_cases hb : IsAscii b
      · rw [decodeFrom_cons, nextByte_ascii (by simp) hb]
        simp only [Option.toList_none, List.map_nil, List.nil_append, List.cons_append,
          List.cons_prefix_cons]
        rw [ih hrest]
        exact and_congr_left' ⟨asChar_inj hw hb, congrArg asChar⟩
      · have hne : w ≠ b := fun heq => hb (heq ▸ hw)
        obtain ⟨c, text, htext, hc⟩ : ∃ c text,
            decodeFrom none (b :: bytes) = c :: text ∧ 0x80 ≤ c.toNat := by
          have hwide := wide_of_nextByte (s := none) (by simp) hb
          rw [decodeFrom_cons]
          cases hout : (nextByte none b).1 with
          | cons c out =>
            rw [hout] at hwide
            exact ⟨c, _, rfl, hwide.1 c List.mem_cons_self⟩
          | nil =>
            -- a byte that adds nothing begins a character
            cases hopen : (nextByte none b).2 with
            | some p => exact decodeFrom_some_cons (hwide.2 p hopen) bytes
            | none =>
              rw [nextByte, firstByte] at hout hopen
              cases hlead : lead b.toNat <;> rw [hlead] at hout hopen
              · cases hout
              · cases hopen
        rw [htext, List.cons_prefix_cons]
        exact iff_of_false (fun h => ne_asChar hw hc h.1) fun h => hne h.1

/-- Characters that are no ASCII are skipped in the search for a word. -/
theorem isInfix_append_iff (hne : word ≠ []) (hword : ∀ b ∈ word, IsAscii b)
    {out : List Char} (hout : ∀ c ∈ out, 0x80 ≤ c.toNat) (text : List Char) :
    word.map asChar <:+: out ++ text ↔ word.map asChar <:+: text := by
  induction out with
  | nil => rfl
  | cons c out ih =>
    obtain ⟨w, rest, rfl⟩ := List.exists_cons_of_ne_nil hne
    rw [List.cons_append, List.infix_cons_iff, ih fun c hc => hout c (List.mem_cons_of_mem _ hc)]
    refine or_iff_right ?_
    rw [List.map_cons, List.cons_prefix_cons]
    exact fun h => ne_asChar (hword w List.mem_cons_self) (hout c List.mem_cons_self) h.1

/-- A word stands in a text where its bytes stand, from any state of the decoder on. -/
theorem isInfix_decodeFrom_iff (hne : word ≠ []) (hword : ∀ b ∈ word, IsAscii b)
    (hs : ∀ p ∈ s, p.Wide) (bytes : List UInt8) :
    word.map asChar <:+: decodeFrom s bytes ↔ word <:+: bytes := by
  have hnil : word.map asChar ≠ [] := by simpa using hne
  induction bytes generalizing s with
  | nil =>
    refine iff_of_false ?_ (by simpa using hne)
    cases s with
    | none => simpa [decodeFrom] using hne
    | some p =>
      have hwide : ∀ c ∈ [replacement], 0x80 ≤ c.toNat := by
        intro c hc
        rw [List.mem_singleton.mp hc]
        decide
      have hskip := isInfix_append_iff hne hword hwide []
      intro h
      exact hnil (List.eq_nil_of_infix_nil (hskip.mp h))
  | cons b bytes ih =>
    rw [decodeFrom_cons]
    by_cases hb : IsAscii b
    · -- the character of the byte is the one place where the word can start
      rw [nextByte_ascii hs hb, List.append_assoc]
      have hskip : ∀ c ∈ s.toList.map (fun _ => replacement), 0x80 ≤ c.toNat := by
        intro c hc
        obtain ⟨p, -, rfl⟩ := List.mem_map.mp hc
        decide
      have hrest : word.map asChar <:+: decodeFrom none bytes ↔ word <:+: bytes := ih (by simp)
      rw [isInfix_append_iff hne hword hskip, List.singleton_append, List.infix_cons_iff,
        hrest, List.infix_cons_iff]
      refine or_congr_left ?_
      have hstart := isPrefix_decode_iff hword (b :: bytes)
      rwa [decodeFrom_cons, nextByte_ascii (by simp) hb] at hstart
    · obtain ⟨hout, hopen⟩ := wide_of_nextByte hs hb
      have hrest : word.map asChar <:+: decodeFrom (nextByte s b).2 bytes ↔ word <:+: bytes :=
        ih hopen
      rw [isInfix_append_iff hne hword hout, hrest, List.infix_cons_iff]
      refine (or_iff_right ?_).symm
      intro hstart
      obtain ⟨w, rest, rfl⟩ := List.exists_cons_of_ne_nil hne
      obtain ⟨rfl, -⟩ := List.cons_prefix_cons.mp hstart
      exact hb (hword w List.mem_cons_self)

/-- A word stands in a decoded text where its bytes stand in the bytes. -/
theorem isInfix_decode_iff (hne : word ≠ []) (hword : ∀ b ∈ word, IsAscii b)
    (bytes : List UInt8) : word.map asChar <:+: decode bytes ↔ word <:+: bytes :=
  isInfix_decodeFrom_iff hne hword (by simp) bytes

end

end PublicPool.Lib.Utf8
