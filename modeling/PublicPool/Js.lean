import Mathlib.Data.List.Sort
import Mathlib.Data.Rat.Floor

/-!
# `PublicPool.Js`: the pieces of the JavaScript runtime the pool computes with

The pool is TypeScript on Node. This module gives the runtime functions whose exact
behaviour its decisions rest on: `String.prototype.trim`, `Array.prototype.sort`,
`parseInt(_, 16)`, `Buffer.from(_, 'hex')`, the 32-bit operators and the
`Buffer.write…LE` methods.

`parseInt` is total on text: it skips leading white space, reads an optional sign and an
optional `0x`, then the longest run of hexadecimal digits, and drops what follows. An
empty run is `NaN`, here `none`. `Buffer.from(_, 'hex')` stops at the first pair of
characters that is not a byte. Both send many texts to one value, and what the share
validation says about two submissions depends on that.
-/

set_option autoImplicit false

namespace PublicPool

/-- A `Buffer`. -/
abbrev Bytes := List UInt8

namespace Js

/-! ### Text -/

/-- The characters `trim` and `parseInt` skip: white space and line terminators. -/
def isWhitespace (c : Char) : Bool :=
  c.toNat ∈ [0x09, 0x0A, 0x0B, 0x0C, 0x0D, 0x20, 0xA0, 0x1680, 0x2028, 0x2029, 0x202F, 0x205F,
    0x3000, 0xFEFF] || (0x2000 ≤ c.toNat && c.toNat ≤ 0x200A)

/-- `s.trim()`. -/
def trim (s : String) : String :=
  String.ofList ((s.toList.dropWhile isWhitespace).reverse.dropWhile isWhitespace).reverse

/-- The value of a hexadecimal digit, in either case. -/
def hexDigit? (c : Char) : Option ℕ :=
  if '0' ≤ c ∧ c ≤ '9' then some (c.toNat - 48)
  else if 'a' ≤ c ∧ c ≤ 'f' then some (c.toNat - 87)
  else if 'A' ≤ c ∧ c ≤ 'F' then some (c.toNat - 55)
  else none

/-- The lower-case hexadecimal digit of `n < 16`. -/
def hexDigit (n : ℕ) : Char :=
  if n < 10 then Char.ofNat (48 + n) else Char.ofNat (87 + n)

/-- `buf.toString('hex')`. -/
def toHex (b : Bytes) : List Char :=
  b.flatMap fun x => [hexDigit (x.toNat / 16), hexDigit (x.toNat % 16)]

/-- `Buffer.from(s, 'hex')`: bytes are read pair by pair and the first pair that is not
a byte ends the buffer. -/
def bufferFromHex : List Char → Bytes
  | hi :: lo :: rest =>
    match hexDigit? hi, hexDigit? lo with
    | some h, some l => UInt8.ofNat (16 * h + l) :: bufferFromHex rest
    | _, _ => []
  | _ => []

theorem hexDigit?_hexDigit {n : ℕ} (h : n < 16) : hexDigit? (hexDigit n) = some n := by
  revert n
  decide

@[simp] theorem toHex_append (a b : Bytes) : toHex (a ++ b) = toHex a ++ toHex b :=
  List.flatMap_append

@[simp] theorem length_toHex (b : Bytes) : (toHex b).length = 2 * b.length := by
  induction b with
  | nil => rfl
  | cons x b ih =>
    show (toHex b).length + 2 = 2 * (b.length + 1)
    rw [ih]
    ring

/-- Bytes are read back from their text, and what follows them as if they were not there. -/
theorem bufferFromHex_toHex_append (b : Bytes) (rest : List Char) :
    bufferFromHex (toHex b ++ rest) = b ++ bufferFromHex rest := by
  induction b with
  | nil => rfl
  | cons x b ih =>
    have hx := x.toNat_lt
    have hhi : hexDigit? (hexDigit (x.toNat / 16)) = some (x.toNat / 16) :=
      hexDigit?_hexDigit (by omega)
    have hlo : hexDigit? (hexDigit (x.toNat % 16)) = some (x.toNat % 16) :=
      hexDigit?_hexDigit (by omega)
    show bufferFromHex (hexDigit (x.toNat / 16) :: hexDigit (x.toNat % 16) :: (toHex b ++ rest))
      = x :: (b ++ bufferFromHex rest)
    rw [bufferFromHex, hhi, hlo]
    simp only [Nat.div_add_mod, UInt8.ofNat_toNat, ih]

@[simp] theorem bufferFromHex_toHex (b : Bytes) : bufferFromHex (toHex b) = b := by
  have h := bufferFromHex_toHex_append b []
  rwa [List.append_nil, show bufferFromHex [] = [] from rfl, List.append_nil] at h

/-- A text has no more bytes than pairs, and as many only if all its characters are digits. -/
theorem length_bufferFromHex (s : List Char) (heven : s.length % 2 = 0) :
    2 * (bufferFromHex s).length ≤ s.length ∧
      (2 * (bufferFromHex s).length = s.length ↔ ∀ c ∈ s, (hexDigit? c).isSome = true) := by
  induction s using bufferFromHex.induct with
  | case1 hi lo rest h l hh hl ih =>
    have hrest : rest.length % 2 = 0 := by
      simp only [List.length_cons] at heven
      omega
    obtain ⟨hle, hiff⟩ := ih hrest
    rw [bufferFromHex, hh, hl]
    simp only [List.length_cons, List.forall_mem_cons, hh, hl, Option.isSome_some, true_and]
    exact ⟨by omega, by rw [← hiff]; omega⟩
  | case2 hi lo rest hnone =>
    have hnil : bufferFromHex (hi :: lo :: rest) = [] := by
      rw [bufferFromHex]
      split
      · rename_i h l hh hl
        exact (hnone h l hh hl).elim
      · rfl
    rw [hnil]
    simp only [List.length_cons, List.length_nil, List.forall_mem_cons]
    refine ⟨by omega, ⟨fun h => by omega, fun ⟨hhi, hlo, _⟩ => ?_⟩⟩
    obtain ⟨h, hh⟩ := Option.isSome_iff_exists.mp hhi
    obtain ⟨l, hl⟩ := Option.isSome_iff_exists.mp hlo
    exact (hnone h l hh hl).elim
  | case3 s hshort =>
    match s with
    | [] => simp [bufferFromHex]
    | [_] => simp at heven
    | hi :: lo :: rest => exact (hshort hi lo rest rfl).elim

/-! ### Numbers -/

/-- `n.toString()` of a counter. -/
def toString10 (n : ℕ) : List Char := Nat.toDigits 10 n

/-- `n.toString()` of an integer. -/
def toStringInt (n : ℤ) : List Char :=
  if n < 0 then '-' :: toString10 n.natAbs else toString10 n.natAbs

/-- The double nearest to a natural number, ties to even. Numbers past the double range
round to a multiple of `2 ^ 32` here and to infinity in JavaScript; both are `0` under the
32-bit operators and both are above every 32-bit bound, which is all the pool asks. -/
def roundToDouble (n : ℕ) : ℕ :=
  if n < 2 ^ 53 then n
  else
    let s := Nat.log2 n - 52
    let q := n / 2 ^ s
    let r := n % 2 ^ s
    let half := 2 ^ (s - 1)
    (if r > half ∨ (r = half ∧ q % 2 = 1) then q + 1 else q) * 2 ^ s

/-- The double nearest to an integer. -/
def toDouble (n : ℤ) : ℤ := n.sign * roundToDouble n.natAbs

/-- Integers of fewer than 54 bits are doubles. -/
theorem toDouble_of_lt {n : ℤ} (hlow : -2 ^ 53 < n) (hhigh : n < 2 ^ 53) : toDouble n = n := by
  have hlt : n.natAbs < 2 ^ 53 := by omega
  rw [toDouble, roundToDouble, if_pos hlt, Int.sign_mul_natAbs]

theorem toDouble_natCast (n : ℕ) : toDouble n = roundToDouble n := by
  cases n with
  | zero => rfl
  | succ n => rw [toDouble, Int.sign_natCast_of_ne_zero n.succ_ne_zero, one_mul, Int.natAbs_natCast]

/-- `parseInt(s, 16)`, with `none` for `NaN`. -/
def parseInt16 (s : String) : Option ℤ :=
  let body := s.toList.dropWhile isWhitespace
  let (negative, body) := match body with
    | '-' :: rest => (true, rest)
    | '+' :: rest => (false, rest)
    | _ => (false, body)
  let body := match body with
    | '0' :: 'x' :: rest => rest
    | '0' :: 'X' :: rest => rest
    | _ => body
  match body.takeWhile fun c => (hexDigit? c).isSome with
  | [] => none
  | digits =>
    let value := roundToDouble (digits.foldl (fun n c => 16 * n + (hexDigit? c).getD 0) 0)
    some (if negative then -(value : ℤ) else value)

/-- `ToInt32`, which every bitwise operator applies to its operands. `NaN` becomes `0`. -/
def toInt32 : Option ℤ → ℤ
  | none => 0
  | some n => n.bmod (2 ^ 32)

/-- `a ^ b`. -/
def bitXor (a b : Option ℤ) : ℤ :=
  (BitVec.ofInt 32 (toInt32 a) ^^^ BitVec.ofInt 32 (toInt32 b)).toInt

/-- The low 32 bits of a number, least significant byte first. -/
def le32 (n : ℤ) : Bytes :=
  let v := (n % 2 ^ 32).toNat
  [UInt8.ofNat v, UInt8.ofNat (v / 2 ^ 8), UInt8.ofNat (v / 2 ^ 16), UInt8.ofNat (v / 2 ^ 24)]

/-- The bytes `buf.writeUInt32LE(value)` writes. A value outside the unsigned 32-bit range
throws a `RangeError`, here `none`; `NaN` passes both comparisons and is written as `0`. -/
def writeUInt32LE : Option ℤ → Option Bytes
  | none => some (le32 0)
  | some n => if 0 ≤ n ∧ n ≤ 0xffffffff then some (le32 n) else none

/-- The bytes `buf.writeInt32LE(value)` writes, with `none` for the `RangeError` outside the
signed 32-bit range. -/
def writeInt32LE (n : ℤ) : Option Bytes :=
  if -0x80000000 ≤ n ∧ n ≤ 0x7fffffff then some (le32 n) else none

theorem writeUInt32LE_eq_some {n : Option ℤ} {b : Bytes} (h : writeUInt32LE n = some b) :
    b = le32 (n.getD 0) := by
  cases n with
  | none =>
    cases h
    rfl
  | some n =>
    simp only [writeUInt32LE] at h
    split at h
    · cases h
      rfl
    · cases h

theorem writeInt32LE_eq_some {n : ℤ} {b : Bytes} (h : writeInt32LE n = some b) :
    b = le32 n := by
  unfold writeInt32LE at h
  split at h
  · cases h
    rfl
  · cases h

/-- `a || b` on numbers: the first operand unless it is `0`. -/
def orElse (a b : ℚ) : ℚ := if a = 0 then b else a

/-! ### Arrays -/

/-- `xs.sort(compare)`, a stable sort. -/
def sort {α : Type*} (compare : α → α → ℚ) (xs : List α) : List α :=
  xs.insertionSort fun a b => compare a b ≤ 0

theorem sort_perm {α : Type*} (compare : α → α → ℚ) (xs : List α) :
    (sort compare xs).Perm xs :=
  List.perm_insertionSort _ xs

@[simp] theorem mem_sort {α : Type*} {compare : α → α → ℚ} {xs : List α} {x : α} :
    x ∈ sort compare xs ↔ x ∈ xs :=
  (sort_perm compare xs).mem_iff

/-- A sorted array is in order for every transitive relation that the comparison decides, also
when the comparison is finer. -/
theorem pairwise_sort {α : Type*} {compare : α → α → ℚ} {R : α → α → Prop} {xs : List α}
    (hle : ∀ a ∈ xs, ∀ b ∈ xs, compare a b ≤ 0 → R a b)
    (hlt : ∀ a ∈ xs, ∀ b ∈ xs, ¬ compare a b ≤ 0 → R b a)
    (htrans : ∀ a ∈ xs, ∀ b ∈ xs, ∀ c ∈ xs, R a b → R b c → R a c) :
    (sort compare xs).Pairwise R := by
  have hinsert : ∀ x ∈ xs, ∀ ys : List α, (∀ y ∈ ys, y ∈ xs) → ys.Pairwise R →
      (ys.orderedInsert (fun a b => compare a b ≤ 0) x).Pairwise R := by
    intro x hx ys
    induction ys with
    | nil => simp
    | cons y ys ih =>
      intro hmem hys
      obtain ⟨hymem, hrestmem⟩ := List.forall_mem_cons.mp hmem
      obtain ⟨hy, hrest⟩ := List.pairwise_cons.mp hys
      rw [List.orderedInsert_cons]
      split
      · rename_i hxy
        refine List.pairwise_cons.mpr ⟨fun z hz => ?_, hys⟩
        have hfirst := hle x hx y hymem hxy
        rcases List.mem_cons.mp hz with rfl | hz
        · exact hfirst
        · exact htrans x hx y hymem z (hrestmem z hz) hfirst (hy z hz)
      · rename_i hxy
        refine List.pairwise_cons.mpr ⟨fun z hz => ?_, ih hrestmem hrest⟩
        rcases List.mem_cons.mp ((List.perm_orderedInsert _ x ys).mem_iff.mp hz) with rfl | hz
        · exact hlt z hx y hymem hxy
        · exact hy z hz
  have hsorted : ∀ ys : List α, (∀ y ∈ ys, y ∈ xs) → (sort compare ys).Pairwise R := by
    intro ys
    induction ys with
    | nil => exact fun _ => List.Pairwise.nil
    | cons y ys ih =>
      intro hmem
      obtain ⟨hy, hrest⟩ := List.forall_mem_cons.mp hmem
      exact hinsert y hy (sort compare ys)
        (fun z hz => hrest z ((sort_perm compare ys).mem_iff.mp hz)) (ih hrest)
  exact hsorted xs fun _ h => h

@[simp] theorem length_sort {α : Type*} (compare : α → α → ℚ) (xs : List α) :
    (sort compare xs).length = xs.length :=
  (sort_perm compare xs).length_eq

/-! ### Comparisons -/

@[simp] theorem orElse_eq_zero {a b : ℚ} : orElse a b = 0 ↔ a = 0 ∧ b = 0 := by
  unfold orElse
  split
  · rename_i ha
    exact (and_iff_right ha).symm
  · rename_i ha
    exact iff_of_false ha fun h => ha h.1

/-- The comparison ranks the members of an array: it says the same of two members in either
order, and it is transitive. -/
structure Ranks {α : Type*} (compare : α → α → ℚ) (xs : List α) : Prop where
  swap : ∀ a ∈ xs, ∀ b ∈ xs, compare b a ≤ 0 ↔ 0 ≤ compare a b
  trans : ∀ a ∈ xs, ∀ b ∈ xs, ∀ c ∈ xs, compare a b ≤ 0 → compare b c ≤ 0 → compare a c ≤ 0

/-- Descending by a number, with a comparison for ties. -/
theorem Ranks.descending {α : Type*} {compare : α → α → ℚ} {xs : List α} (h : Ranks compare xs)
    (f : α → ℚ) : Ranks (fun a b => orElse (f b - f a) (compare a b)) xs := by
  have hle : ∀ a b, orElse (f b - f a) (compare a b) ≤ 0
      ↔ f b < f a ∨ (f a = f b ∧ compare a b ≤ 0) := by
    intro a b
    unfold orElse
    split
    · rename_i heq
      have heq : f a = f b := (sub_eq_zero.mp heq).symm
      simp [heq]
    · rename_i hne
      have hne : f b ≠ f a := fun heq => hne (sub_eq_zero.mpr heq)
      simp only [sub_nonpos, hne.symm, false_and, or_false]
      exact ⟨fun hle => hne.lt_of_le hle, le_of_lt⟩
  refine ⟨fun a ha b hb => ?_, fun a ha b hb c hc hab hbc => ?_⟩
  · have hge : 0 ≤ orElse (f b - f a) (compare a b)
        ↔ f a < f b ∨ (f a = f b ∧ 0 ≤ compare a b) := by
      unfold orElse
      split
      · rename_i heq
        have heq : f a = f b := (sub_eq_zero.mp heq).symm
        simp [heq]
      · rename_i hne
        have hne : f b ≠ f a := fun heq => hne (sub_eq_zero.mpr heq)
        simp only [sub_nonneg, hne.symm, false_and, or_false]
        exact ⟨fun hle => hne.symm.lt_of_le hle, le_of_lt⟩
    rw [hle, hge, h.swap a ha b hb, eq_comm]
  · rw [hle] at hab hbc ⊢
    rcases hab with hab | ⟨hab, hab'⟩
    · rcases hbc with hbc | ⟨hbc, -⟩
      · exact Or.inl (hbc.trans hab)
      · exact Or.inl (hbc ▸ hab)
    · rcases hbc with hbc | ⟨hbc, hbc'⟩
      · exact Or.inl (hab ▸ hbc)
      · exact Or.inr ⟨hab.trans hbc, h.trans a ha b hb c hc hab' hbc'⟩

/-- An array sorted by a comparison that tells all members apart does not depend on the order
in which the members came. -/
theorem sort_eq_of_perm {α : Type*} {compare : α → α → ℚ} {xs ys : List α}
    (h : Ranks compare xs) (heq : ∀ a ∈ xs, ∀ b ∈ xs, compare a b = 0 → a = b)
    (hperm : xs.Perm ys) : sort compare xs = sort compare ys := by
  have hsorted : ∀ zs : List α, (∀ z ∈ zs, z ∈ xs) →
      (sort compare zs).Pairwise fun a b => compare a b ≤ 0 := fun zs hzs =>
    pairwise_sort (fun _ _ _ _ hle => hle)
      (fun a ha b hb hlt => (h.swap a (hzs a ha) b (hzs b hb)).mpr (not_le.mp hlt).le)
      fun a ha b hb c hc => h.trans a (hzs a ha) b (hzs b hb) c (hzs c hc)
  refine List.Perm.eq_of_pairwise (fun a b ha hb hab hba => ?_) (hsorted xs fun _ h => h)
    (hsorted ys fun _ hy => hperm.mem_iff.mpr hy)
    ((sort_perm compare xs).trans (hperm.trans (sort_perm compare ys).symm))
  have ha : a ∈ xs := mem_sort.mp ha
  have hb : b ∈ xs := hperm.mem_iff.mpr (mem_sort.mp hb)
  exact heq a ha b hb (le_antisymm hab ((h.swap a ha b hb).mp hba))

end Js

end PublicPool
