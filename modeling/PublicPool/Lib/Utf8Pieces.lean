import PublicPool.Lib.Utf8
import Mathlib.Data.List.Count

/-!
# `PublicPool.Lib.Utf8Pieces`: decoding a stream of bytes piece by piece

A decoder that is called for each piece of a stream forgets the character that the piece ends in.
Where the next piece does not go on with it, nothing is lost: the whole decoder replaces it as well.
Where it does, the character is replaced in both pieces.

`CutsCharacter` says of a cut that the next byte goes on with a character before the cut. Pieces
without such a cut decode to the text of the whole (`decode_flatten_of_keeps`). With one they have
more replacement characters than the whole (`replaced_lt_of_not_keeps`), so that the texts differ,
and so does everything that keeps these characters.
-/

set_option autoImplicit false

namespace PublicPool.Lib.Utf8

/-! ### One byte at a time -/

/-- A byte goes on with a character. -/
def Pending.Accepts (p : Pending) (b : UInt8) : Prop := p.lower ≤ b.toNat ∧ b.toNat ≤ p.upper

instance (p : Pending) (b : UInt8) : Decidable (p.Accepts b) := inferInstanceAs (Decidable (_ ∧ _))

/-- What is decoded at the start of a character, and what is left open. -/
def firstByte (b : UInt8) : List Char × Option Pending :=
  match lead b.toNat with
  | .inl c => ([c], none)
  | .inr p => ([], some p)

/-- What a byte adds, and what it leaves open. -/
def nextByte : Option Pending → UInt8 → List Char × Option Pending
  | none, b => firstByte b
  | some p, b =>
    if p.Accepts b then
      if p.needed = 1 then ([Char.ofNat (p.codePoint * 64 + b.toNat % 64)], none)
      else ([], some ⟨p.needed - 1, p.codePoint * 64 + b.toNat % 64, 0x80, 0xbf⟩)
    else (replacement :: (firstByte b).1, (firstByte b).2)

/-- The character that some bytes end in. -/
def pendingAfter (s : Option Pending) (bytes : List UInt8) : Option Pending :=
  bytes.foldl (fun s b => (nextByte s b).2) s

theorem decodeFrom_none_cons (b : UInt8) (bytes : List UInt8) :
    decodeFrom none (b :: bytes) = (firstByte b).1 ++ decodeFrom (firstByte b).2 bytes := by
  rw [decodeFrom, firstByte]
  cases lead b.toNat <;> rfl

theorem decodeFrom_cons (s : Option Pending) (b : UInt8) (bytes : List UInt8) :
    decodeFrom s (b :: bytes) = (nextByte s b).1 ++ decodeFrom (nextByte s b).2 bytes := by
  cases s with
  | none => exact decodeFrom_none_cons b bytes
  | some p =>
    rw [decodeFrom, nextByte]
    have hsame : p.Accepts b ↔ p.lower ≤ b.toNat ∧ b.toNat ≤ p.upper := Iff.rfl
    by_cases hbounds : p.Accepts b
    · rw [if_pos (hsame.mp hbounds), if_pos hbounds]
      dsimp only
      split <;> rfl
    · rw [if_neg (fun h => hbounds (hsame.mpr h)), if_neg hbounds, firstByte]
      cases lead b.toNat <;> rfl

/-- A character that is left open keeps to the bytes that go on with one. -/
def Pending.Continues (p : Pending) : Prop := 0x80 ≤ p.lower ∧ p.upper ≤ 0xbf

section
variable {p : Pending} {s : Option Pending} {b : UInt8} {before after : List UInt8}

theorem continues_of_lead {b : ℕ} (h : lead b = .inr p) : p.Continues := by
  simp only [lead] at h
  split_ifs at h <;> cases h <;> exact ⟨Nat.le_of_ble_eq_true rfl, Nat.le_of_ble_eq_true rfl⟩

theorem continues_of_nextByte (hs : ∀ p ∈ s, p.Continues) (b : UInt8) :
    ∀ p ∈ (nextByte s b).2, p.Continues := by
  have hfirst : ∀ p ∈ (firstByte b).2, p.Continues := by
    intro p hp
    rw [firstByte] at hp
    split at hp
    · cases hp
    · rename_i q hlead
      cases hp
      exact continues_of_lead hlead
  cases s with
  | none => exact hfirst
  | some q =>
    rw [nextByte]
    split
    · split
      · intro p hp
        cases hp
      · intro p hp
        cases hp
        exact ⟨Nat.le_refl _, Nat.le_refl _⟩
    · exact hfirst

theorem continues_pendingAfter (hs : ∀ p ∈ s, p.Continues) (bytes : List UInt8) :
    ∀ p ∈ pendingAfter s bytes, p.Continues := by
  induction bytes generalizing s with
  | nil => exact hs
  | cons b bytes ih => exact ih (continues_of_nextByte hs b)

/-- A byte that goes on with a character is no character by itself. -/
theorem firstByte_of_accepts (hp : p.Continues) (hb : p.Accepts b) :
    firstByte b = ([replacement], none) := by
  have hlow := Nat.le_trans hp.1 hb.1
  have hhigh := Nat.le_trans hb.2 hp.2
  have hlead : lead b.toNat = .inl replacement := by
    rw [lead]
    repeat rw [if_neg (by omega)]
  rw [firstByte, hlead]

/-! ### A cut -/

/-- The characters that some bytes complete. -/
def completed : Option Pending → List UInt8 → List Char
  | _, [] => []
  | s, b :: bytes => (nextByte s b).1 ++ completed (nextByte s b).2 bytes

theorem decodeFrom_append (s : Option Pending) (bytes more : List UInt8) :
    decodeFrom s (bytes ++ more) =
      completed s bytes ++ decodeFrom (pendingAfter s bytes) more := by
  induction bytes generalizing s with
  | nil => rfl
  | cons b bytes ih =>
    rw [List.cons_append, decodeFrom_cons, ih, completed, List.append_assoc]
    rfl

/-- The next byte goes on with the character before it. -/
def Cuts (s : Option Pending) (more : List UInt8) : Prop :=
  ∃ p ∈ s, ∃ b ∈ more.head?, p.Accepts b

instance (s : Option Pending) (more : List UInt8) : Decidable (Cuts s more) :=
  decidable_of_iff ((s.any fun p => more.head?.any fun b => p.Accepts b) = true) (by
    simp [Cuts, Option.any_eq_true])

variable {more bytes : List UInt8}

theorem Cuts.exists (h : Cuts s more) :
    ∃ p b bytes, s = some p ∧ more = b :: bytes ∧ p.Accepts b := by
  obtain ⟨p, hp, b, hb, haccepts⟩ := h
  cases more with
  | nil => cases hb
  | cons first bytes =>
    cases hb
    exact ⟨p, b, bytes, hp, rfl, haccepts⟩

/-- Where a byte does not go on with the character before it, it is looked at as a first one. -/
theorem nextByte_of_not_accepts (h : ¬ Cuts s (b :: bytes)) :
    nextByte s b = (decodeFrom s [] ++ (firstByte b).1, (firstByte b).2) := by
  cases s with
  | none => rfl
  | some p =>
    have hnot : ¬ p.Accepts b := fun haccepts => h ⟨p, rfl, b, rfl, haccepts⟩
    rw [nextByte, if_neg hnot]
    rfl

/-- Without such a byte, what is before the cut and what is after it decode separately. -/
theorem decodeFrom_of_not_cuts (h : ¬ Cuts s more) :
    decodeFrom s more = decodeFrom s [] ++ decodeFrom none more := by
  cases more with
  | nil => exact (List.append_nil _).symm
  | cons b bytes =>
    rw [decodeFrom_cons, nextByte_of_not_accepts h, decodeFrom_none_cons, List.append_assoc]

/-- What is left open later does not depend on what was left open before such a cut. -/
theorem pendingAfter_of_not_cuts (h : ¬ Cuts s (b :: bytes)) :
    pendingAfter s (b :: bytes) = pendingAfter none (b :: bytes) := by
  rw [pendingAfter, pendingAfter, List.foldl_cons, List.foldl_cons, nextByte_of_not_accepts h]
  rfl

/-! ### Replacement characters -/

/-- How many characters were replaced. -/
def replaced (text : List Char) : ℕ := text.count replacement

theorem replaced_append (text more : List Char) :
    replaced (text ++ more) = replaced text + replaced more :=
  List.count_append

/-- Forgetting an open character costs one replacement character at most. -/
theorem replaced_le (hp : p.Continues) (bytes : List UInt8) :
    replaced (decodeFrom (some p) bytes) ≤ 1 + replaced (decodeFrom none bytes) := by
  induction bytes generalizing p with
  | nil => exact Nat.le_refl 1
  | cons b bytes ih =>
    by_cases hb : p.Accepts b
    · have hone : replaced [Char.ofNat (p.codePoint * 64 + b.toNat % 64)] ≤ 1 :=
        List.count_le_length
      have hreplaced : replaced [replacement] = 1 := rfl
      rw [decodeFrom_cons, decodeFrom_none_cons, firstByte_of_accepts hp hb, nextByte, if_pos hb]
      split
      · dsimp only
        rw [replaced_append, replaced_append]
        omega
      · have hrest := ih (p := ⟨p.needed - 1, p.codePoint * 64 + b.toNat % 64, 0x80, 0xbf⟩)
          ⟨Nat.le_refl _, Nat.le_refl _⟩
        have hnone : replaced [] = 0 := rfl
        dsimp only
        rw [replaced_append, replaced_append]
        omega
    · have hnot : ¬ Cuts (some p) (b :: bytes) := by
        rintro ⟨q, hq, c, hc, haccepts⟩
        cases hq
        cases hc
        exact hb haccepts
      rw [decodeFrom_of_not_cuts hnot, replaced_append]
      exact Nat.le_refl _

/-- Where a byte goes on with the character, the character is replaced twice. -/
theorem replaced_lt (hp : p.Continues) (hb : p.Accepts b) (bytes : List UInt8) :
    replaced (decodeFrom (some p) (b :: bytes)) < 1 + replaced (decodeFrom none (b :: bytes)) := by
  have hone : replaced [Char.ofNat (p.codePoint * 64 + b.toNat % 64)] ≤ 1 := List.count_le_length
  have hreplaced : replaced [replacement] = 1 := rfl
  have hnone : replaced [] = 0 := rfl
  rw [decodeFrom_cons, decodeFrom_none_cons, firstByte_of_accepts hp hb, nextByte, if_pos hb]
  split
  · dsimp only
    rw [replaced_append, replaced_append]
    omega
  · have hrest := replaced_le
      (p := ⟨p.needed - 1, p.codePoint * 64 + b.toNat % 64, 0x80, 0xbf⟩)
      ⟨Nat.le_refl _, Nat.le_refl _⟩ bytes
    dsimp only
    rw [replaced_append, replaced_append]
    omega

/-! ### Pieces -/

/-- A cut of a stream between a character and the byte that goes on with it. -/
def CutsCharacter (before after : List UInt8) : Prop := Cuts (pendingAfter none before) after

instance (before after : List UInt8) : Decidable (CutsCharacter before after) :=
  inferInstanceAs (Decidable (Cuts _ _))

theorem decode_append_of_not_cuts (h : ¬ CutsCharacter before after) :
    decode (before ++ after) = decode before ++ decode after := by
  have hbefore := decodeFrom_append none before []
  rw [List.append_nil] at hbefore
  rw [decode, decode, decode, decodeFrom_append, decodeFrom_of_not_cuts h, hbefore,
    List.append_assoc]

theorem replaced_lt_of_cut (h : CutsCharacter before after) :
    replaced (decode (before ++ after)) < replaced (decode before ++ decode after) := by
  obtain ⟨p, b, bytes, hp, rfl, hb⟩ := h.exists
  have hcontinues : p.Continues := continues_pendingAfter (s := none)
    (fun _ hnone => by cases hnone) before p hp
  have hbefore := decodeFrom_append none before []
  rw [List.append_nil] at hbefore
  have hlt := replaced_lt hcontinues hb bytes
  have hreplaced : replaced (decodeFrom (some p) []) = 1 := rfl
  rw [decode, decode, decode, decodeFrom_append, hbefore, hp, List.append_assoc, replaced_append,
    replaced_append, replaced_append, hreplaced]
  omega

theorem replaced_append_le (before after : List UInt8) :
    replaced (decode (before ++ after)) ≤ replaced (decode before ++ decode after) := by
  by_cases h : CutsCharacter before after
  · exact Nat.le_of_lt (replaced_lt_of_cut h)
  · exact Nat.le_of_eq (congrArg replaced (decode_append_of_not_cuts h))

/-- No cut between the pieces is one between a character and the byte that goes on with it. -/
def KeepsCharacters (pieces : List (List UInt8)) : Prop :=
  ∀ i < pieces.length + 1, ¬ CutsCharacter (pieces.take i).flatten (pieces.drop i).flatten

instance (pieces : List (List UInt8)) : Decidable (KeepsCharacters pieces) :=
  inferInstanceAs (Decidable (∀ i < pieces.length + 1, ¬ _))

/-- After a harmless cut, the later cuts of the stream are those of the rest. -/
theorem cutsCharacter_append {first : List UInt8} (h : ¬ CutsCharacter first (before ++ after)) :
    CutsCharacter (first ++ before) after ↔ CutsCharacter before after := by
  have hpending : pendingAfter none (first ++ before) =
      pendingAfter (pendingAfter none first) before := List.foldl_append
  rw [CutsCharacter, CutsCharacter, hpending]
  cases before with
  | nil =>
    refine iff_of_false h ?_
    rintro ⟨p, hp, -⟩
    cases hp
  | cons b before =>
    have hnot : ¬ Cuts (pendingAfter none first) (b :: before) := by
      rintro ⟨p, hp, c, hc, haccepts⟩
      exact h ⟨p, hp, c, hc, haccepts⟩
    rw [pendingAfter_of_not_cuts hnot]

end

theorem keepsCharacters_cons (piece : List UInt8) (pieces : List (List UInt8)) :
    KeepsCharacters (piece :: pieces) ↔
      ¬ CutsCharacter piece pieces.flatten ∧ KeepsCharacters pieces := by
  have hsplit (i : ℕ) : (pieces.take i).flatten ++ (pieces.drop i).flatten = pieces.flatten := by
    rw [← List.flatten_append, List.take_append_drop]
  constructor
  · intro h
    have hfirst := h 1 (Nat.succ_lt_succ (Nat.succ_pos _))
    rw [List.take_succ_cons, List.take_zero, List.flatten_singleton, List.drop_succ_cons,
      List.drop_zero] at hfirst
    refine ⟨hfirst, fun i hi hcut => ?_⟩
    refine h (i + 1) (Nat.succ_lt_succ hi) ?_
    rw [List.take_succ_cons, List.flatten_cons, List.drop_succ_cons]
    exact (cutsCharacter_append (by rwa [hsplit])).mpr hcut
  · rintro ⟨hfirst, hrest⟩ i hi hcut
    cases i with
    | zero =>
      obtain ⟨p, hp, -⟩ := hcut
      cases hp
    | succ i =>
      rw [List.take_succ_cons, List.flatten_cons, List.drop_succ_cons] at hcut
      exact hrest i (Nat.lt_of_succ_lt_succ hi) ((cutsCharacter_append (by rwa [hsplit])).mp hcut)

theorem replaced_flatten_le (pieces : List (List UInt8)) :
    replaced (decode pieces.flatten) ≤ replaced (pieces.flatMap decode) := by
  induction pieces with
  | nil => exact Nat.le_refl _
  | cons piece pieces ih =>
    have happend := replaced_append_le piece pieces.flatten
    rw [replaced_append] at happend
    rw [List.flatten_cons, List.flatMap_cons, replaced_append]
    omega

theorem decode_flatten_of_keeps {pieces : List (List UInt8)} (h : KeepsCharacters pieces) :
    pieces.flatMap decode = decode pieces.flatten := by
  induction pieces with
  | nil => rfl
  | cons piece pieces ih =>
    obtain ⟨hfirst, hrest⟩ := (keepsCharacters_cons piece pieces).mp h
    rw [List.flatMap_cons, List.flatten_cons, decode_append_of_not_cuts hfirst, ih hrest]

theorem replaced_lt_of_not_keeps {pieces : List (List UInt8)} (h : ¬ KeepsCharacters pieces) :
    replaced (decode pieces.flatten) < replaced (pieces.flatMap decode) := by
  induction pieces with
  | nil =>
    refine absurd (fun i _ hcut => ?_) h
    rw [List.take_nil] at hcut
    obtain ⟨p, hp, -⟩ := hcut
    cases hp
  | cons piece pieces ih =>
    rw [List.flatten_cons, List.flatMap_cons, replaced_append]
    by_cases hfirst : CutsCharacter piece pieces.flatten
    · have hlt := replaced_lt_of_cut hfirst
      have hrest := replaced_flatten_le pieces
      rw [replaced_append] at hlt
      omega
    · have hrest := ih fun hkeeps => h ((keepsCharacters_cons piece pieces).mpr ⟨hfirst, hkeeps⟩)
      have happend := replaced_append_le piece pieces.flatten
      rw [replaced_append] at happend
      omega

end PublicPool.Lib.Utf8
