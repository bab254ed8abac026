import PublicPool.Proofs.WrittenOutputs
import PublicPool.Sv2.OutputLists

/-!
# `PublicPool.Proofs.Sv2.OutputLists`: varints and output lists are read as they were written

`varints_and_outputs_read_back` has two parts. Both readers give the value of what either encoder
has written and the offset just after it, wherever it stands in a buffer (`ReadsBack`). And
`extractOutputScripts` gives the scripts of a serialized list of outputs, and fails on every part of
it that stops short of its end.

The readers with offsets are those at the front of a buffer, moved (`readBitcoinVarIntAt_append`,
`readVarIntAt_append`). A part that stops short does so in the count, in the value, the length or
the script of some output, or between two outputs, and each time the next thing is missing.
-/

set_option autoImplicit false

namespace PublicPool.Proofs

open Sv2
open Sv2.Sv2JobDeclarationRegistry (readVarInt readOutputScripts extractOutputScripts)

/-! ### The encoders -/

/-- What fits is written as a count of the format. -/
theorem encodeBitcoinVarInt_eq_some {value : ℤ} {bytes : Bytes} :
    encodeBitcoinVarInt value = some bytes ↔
      0 ≤ value ∧ value < 2 ^ 53 ∧ bytes = putVarInt value.toNat := by
  unfold encodeBitcoinVarInt
  split
  · simp only [reduceCtorEq, false_iff]
    omega
  · rename_i hsafe
    obtain ⟨n, rfl⟩ := Int.eq_ofNat_of_zero_le (not_lt.mp fun h => hsafe (Or.inl h))
    have hvalue : (if ((n : ℕ) : ℤ) < 0xfd then some (putLE 1 (n : ℤ))
        else if ((n : ℕ) : ℤ) ≤ 0xffff then some (0xfd :: putLE 2 (n : ℤ))
        else if ((n : ℕ) : ℤ) ≤ 0xffffffff then some (0xfe :: putLE 4 (n : ℤ))
        else some (0xff :: putLE 8 (n : ℤ))) = some (putVarInt n) := by
      unfold putVarInt
      norm_cast
      split
      · rfl
      · split
        · rfl
        · split <;> rfl
    rw [hvalue, Option.some.injEq, Int.toNat_natCast]
    constructor
    · rintro rfl
      exact ⟨by omega, by omega, rfl⟩
    · rintro ⟨-, -, rfl⟩
      rfl

/-! ### The readers -/

section
variable (before : Bytes)

variable (first : UInt8) (rest : Bytes) (b : Bytes)

theorem length_lt_append {n : ℕ} :
    (before ++ first :: rest).length < before.length + (n + 1) ↔ rest.length < n := by
  rw [List.length_append, List.length_cons]
  omega

theorem drop_append_cons : (before ++ first :: rest).drop (before.length + 1) = rest := by
  rw [List.drop_length_add_append]
  rfl

theorem getElem?_append_cons : (before ++ first :: rest)[before.length]? = some first := by
  simp

/-- The reader of the template provider behind some bytes is the one at the front. -/
theorem readBitcoinVarIntAt_append :
    readBitcoinVarIntAt (before ++ b) before.length
      = (readBitcoinVarInt b).map fun read =>
          (read.1, before.length + (b.length - read.2.length)) := by
  cases b with
  | nil => simp [readBitcoinVarIntAt, readBitcoinVarInt]
  | cons first rest =>
    have hshort : ∀ n, (before ++ first :: rest).length < before.length + (n + 1)
        ↔ rest.length < n := fun n => length_lt_append before first rest
    simp only [readBitcoinVarIntAt, readBitcoinVarInt, getElem?_append_cons, drop_append_cons,
      hshort]
    by_cases hsmall : first < 0xfd
    · simp [hsmall]
    by_cases htwo : first = 0xfd
    · by_cases hrest : rest.length < 2
      · simp [htwo, hrest]
      · simp [htwo, hrest]
        omega
    by_cases hfour : first = 0xfe
    · by_cases hrest : rest.length < 4
      · simp [hfour, hrest]
      · simp [hfour, hrest]
        omega
    · by_cases hrest : rest.length < 8
      · simp [hsmall, htwo, hfour, hrest]
      · simp [hsmall, htwo, hfour, hrest]
        omega

/-- The reader of the registry behind some bytes is the one at the front. -/
theorem readVarIntAt_append :
    readVarIntAt (before ++ b) before.length
      = (readVarInt b).map fun read => (read.1, before.length + (b.length - read.2.length)) := by
  cases b with
  | nil => simp [readVarIntAt, readVarInt, Except.map]
  | cons first rest =>
    have hshort : ∀ n, (before ++ first :: rest).length < before.length + (n + 1)
        ↔ rest.length < n := fun n => length_lt_append before first rest
    simp only [readVarIntAt, readVarInt, getElem?_append_cons, drop_append_cons, hshort]
    by_cases hsmall : first < 0xfd
    · simp [hsmall, Except.map]
    by_cases htwo : first = 0xfd
    · by_cases hrest : rest.length < 2
      · simp [htwo, hrest, Except.map]
      · simp [htwo, hrest, Except.map]
        omega
    by_cases hfour : first = 0xfe
    · by_cases hrest : rest.length < 4
      · simp [hfour, hrest, Except.map]
      · simp [hfour, hrest, Except.map]
        omega
    · simp [hsmall, htwo, hfour, Except.map]

end

/-- The reader of the registry gives what the other one gives, up to the longest form. -/
theorem readVarInt_of_readBitcoinVarInt {b rest : Bytes} {value : ℕ}
    (h : readBitcoinVarInt b = some (value, rest)) (hlong : b.head? ≠ some 0xff) :
    readVarInt b = .ok (value, rest) := by
  cases b with
  | nil => cases h
  | cons first tail =>
    simp only [readBitcoinVarInt] at h
    unfold readVarInt
    by_cases hsmall : first < 0xfd
    · simp only [hsmall, if_true, Option.some.injEq, Prod.mk.injEq] at h ⊢
      rw [h.1, h.2]
    by_cases htwo : first = 0xfd
    · subst htwo
      by_cases hrest : tail.length < 2
      · simp [hrest] at h
      · simp [hrest] at h ⊢
        exact h
    by_cases hfour : first = 0xfe
    · subst hfour
      by_cases hrest : tail.length < 4
      · simp [hrest] at h
      · simp [hrest] at h ⊢
        exact h
    · -- the only byte that is left begins the longest form
      refine absurd (congrArg some ?_) hlong
      have hle : 0xfd ≤ first.toNat := UInt8.le_iff_toNat_le.mp (UInt8.not_lt.mp hsmall)
      have hne : first.toNat ≠ 0xfd := fun heq => htwo (UInt8.toNat_inj.mp heq)
      have hne' : first.toNat ≠ 0xfe := fun heq => hfour (UInt8.toNat_inj.mp heq)
      have hlt := first.toNat_lt
      exact UInt8.toNat_inj.mp (show first.toNat = 0xff by omega)

section
variable {n : ℕ} {bytes part : Bytes} {outputs : List CoinbaseOutput}

/-- A count below `2 ^ 32` does not have the longest form. -/
theorem head?_putVarInt (h : n < 2 ^ 32) (rest : Bytes) :
    (putVarInt n ++ rest).head? ≠ some 0xff := by
  unfold putVarInt
  split
  · rename_i hsmall
    rw [putLE_succ]
    intro heq
    have hbyte : (UInt8.ofNat (n % 256)).toNat = 0xff :=
      congrArg UInt8.toNat (Option.some.inj heq)
    rw [UInt8.toNat_ofNat'] at hbyte
    omega
  · split
    · simp
    · split
      · simp
      · omega

theorem readVarInt_putVarInt (h : n < 2 ^ 32) (rest : Bytes) :
    readVarInt (putVarInt n ++ rest) = .ok (n, rest) :=
  readVarInt_of_readBitcoinVarInt (readBitcoinVarInt_putVarInt (by omega) rest)
    (head?_putVarInt h rest)

/-- An encoder whose counts are read back, wherever they stand: by the template provider, and by
the registry below `2 ^ 32`. -/
def ReadsBack (encode : ℤ → Option Bytes) : Prop :=
  ∀ value : ℤ, 0 ≤ value → value < 2 ^ 53 → ∃ bytes, encode value = some bytes ∧
    ∀ before after : Bytes,
      readBitcoinVarIntAt (before ++ bytes ++ after) before.length
          = some (value.toNat, before.length + bytes.length) ∧
        (value < 2 ^ 32 → readVarIntAt (before ++ bytes ++ after) before.length
          = .ok (value.toNat, before.length + bytes.length))

theorem readsBack_encodeBitcoinVarInt : ReadsBack encodeBitcoinVarInt := by
  intro value hnonneg hsafe
  refine ⟨_, encodeBitcoinVarInt_eq_some.mpr ⟨hnonneg, hsafe, rfl⟩, ?_⟩
  intro before after
  have hlength : (putVarInt value.toNat ++ after).length - after.length
      = (putVarInt value.toNat).length := by
    rw [List.length_append]
    omega
  rw [List.append_assoc]
  constructor
  · rw [readBitcoinVarIntAt_append, readBitcoinVarInt_putVarInt (by omega)]
    simp only [Option.map_some, hlength]
  · intro hsmall
    rw [readVarIntAt_append, readVarInt_putVarInt (by omega)]
    simp only [Except.map, hlength]

/-! ### Output lists -/

/-- An output of a list, as it is written. -/
def writtenOutput (output : CoinbaseOutput) : Bytes :=
  putLE 8 output.value ++ putVarInt output.scriptPubKey.length ++ output.scriptPubKey

theorem serialize_eq_some {output : CoinbaseOutput} (h : output.serialize = some bytes) :
    bytes = writtenOutput output := by
  unfold CoinbaseOutput.serialize at h
  split at h
  · cases h
  · simp only [CustomWorkService.encodeBitcoinVarInt, Option.bind_eq_bind, Option.bind_eq_some_iff,
      Option.pure_def, Option.some.injEq] at h
    obtain ⟨count, hcount, rfl⟩ := h
    obtain ⟨-, -, rfl⟩ := encodeBitcoinVarInt_eq_some.mp hcount
    rfl

theorem serializeCoinbaseOutputs_eq_some
    (h : Sv2JobDeclarationConnection.serializeCoinbaseOutputs outputs = some bytes) :
    bytes = putVarInt outputs.length ++ outputs.flatMap writtenOutput := by
  simp only [Sv2JobDeclarationConnection.serializeCoinbaseOutputs,
    CustomWorkService.encodeBitcoinVarInt, Option.bind_eq_bind, Option.bind_eq_some_iff,
    Option.pure_def, Option.some.injEq] at h
  obtain ⟨count, hcount, parts, hparts, rfl⟩ := h
  obtain ⟨-, -, rfl⟩ := encodeBitcoinVarInt_eq_some.mp hcount
  have hwritten : parts.flatten = outputs.flatMap writtenOutput := by
    clear hcount
    induction outputs generalizing parts with
    | nil =>
      cases hparts
      rfl
    | cons output outputs ih =>
      simp only [List.mapM_cons, Option.bind_eq_bind, Option.bind_eq_some_iff, Option.pure_def,
        Option.some.injEq] at hparts
      obtain ⟨first, hfirst, rest, hrest, rfl⟩ := hparts
      rw [List.flatten_cons, List.flatMap_cons, serialize_eq_some hfirst, ih rest hrest]
  rw [hwritten, Int.toNat_natCast]

/-- An output with a script that the registry can read. -/
def ShortScript (output : CoinbaseOutput) : Prop := output.scriptPubKey.length < 2 ^ 32

theorem readOutputScripts_written (h : ∀ output ∈ outputs, ShortScript output) (rest : Bytes) :
    readOutputScripts outputs.length (outputs.flatMap writtenOutput ++ rest)
      = .ok (outputs.map (·.scriptPubKey)) := by
  induction outputs with
  | nil => rfl
  | cons output outputs ih =>
    obtain ⟨hshort, hothers⟩ := List.forall_mem_cons.mp h
    have hvalue : ((output :: outputs).flatMap writtenOutput ++ rest).drop 8
        = putVarInt output.scriptPubKey.length
          ++ (output.scriptPubKey ++ (outputs.flatMap writtenOutput ++ rest)) := by
      simp only [List.flatMap_cons, writtenOutput, List.append_assoc]
      exact List.drop_left' (length_putLE 8 output.value)
    have hroom : ¬((output :: outputs).flatMap writtenOutput ++ rest).length < 8 := by
      simp only [List.flatMap_cons, writtenOutput, List.length_append, length_putLE]
      omega
    have hscript : ¬(output.scriptPubKey ++ (outputs.flatMap writtenOutput ++ rest)).length
        < output.scriptPubKey.length := by
      rw [List.length_append]
      omega
    rw [List.length_cons, readOutputScripts, if_neg hroom, hvalue, readVarInt_putVarInt hshort]
    simp only [bind, Except.bind, pure, Except.pure, if_neg hscript, List.drop_left,
      List.take_left, ih hothers, List.map_cons]

/-! ### Parts of an output list -/

/-- A part of two pieces ends in the first one, or in the second one. -/
theorem prefix_append_cases {α : Type*} {part first second : List α}
    (h : part <+: first ++ second) :
    (part <+: first ∧ part.length < first.length) ∨
      ∃ tail, part = first ++ tail ∧ tail <+: second := by
  by_cases hlength : part.length < first.length
  · exact Or.inl ⟨List.prefix_of_prefix_length_le h (List.prefix_append _ _) hlength.le, hlength⟩
  · right
    obtain ⟨tail, rfl⟩ :=
      List.prefix_of_prefix_length_le (List.prefix_append first second) h (not_lt.mp hlength)
    exact ⟨tail, rfl, (List.prefix_append_right_inj first).mp h⟩

/-- A count that stops short is no count. -/
theorem readVarInt_short (h : n < 2 ^ 32) (hpart : part <+: putVarInt n)
    (hlength : part.length < (putVarInt n).length) :
    readVarInt part = .error "invalid-coinbase-outputs" := by
  -- the marker byte of a longer form, without all of its value
  have hmarked : ∀ (marker : UInt8) (k : ℕ), part <+: marker :: putLE k n → part.length < k + 1 →
      part = [] ∨ ∃ tail, part = marker :: tail ∧ tail.length < k := by
    intro marker k hprefix hlt
    rcases List.prefix_cons_iff.mp hprefix with hnil | ⟨tail, rfl, -⟩
    · exact Or.inl hnil
    · exact Or.inr ⟨tail, rfl, by simpa using hlt⟩
  unfold putVarInt at hpart hlength
  split at hpart
  · rename_i hsmall
    rw [if_pos hsmall, length_putLE] at hlength
    have hnil : part = [] := List.length_eq_zero_iff.mp (by omega)
    rw [hnil]
    rfl
  · rename_i hlarge
    rw [if_neg hlarge] at hlength
    split at hpart
    · rename_i htwo
      rw [if_pos htwo, List.length_cons, length_putLE] at hlength
      rcases hmarked 0xfd 2 hpart hlength with rfl | ⟨tail, rfl, hshort⟩
      · rfl
      · simp [readVarInt, hshort]
    · rename_i htwo
      rw [if_neg htwo] at hlength
      rw [if_pos (by omega)] at hpart hlength
      rw [List.length_cons, length_putLE] at hlength
      rcases hmarked 0xfe 4 hpart hlength with rfl | ⟨tail, rfl, hshort⟩
      · rfl
      · simp [readVarInt, hshort]

/-- A list of outputs that stops short ends in the middle of an output, or before one that is still
to come. -/
theorem readOutputScripts_short (h : ∀ output ∈ outputs, ShortScript output)
    (hpart : part <+: outputs.flatMap writtenOutput) (hne : part ≠ outputs.flatMap writtenOutput) :
    readOutputScripts outputs.length part = .error "invalid-coinbase-outputs" := by
  induction outputs generalizing part with
  | nil => exact absurd (List.prefix_nil.mp hpart) hne
  | cons output outputs ih =>
    obtain ⟨hshort, hothers⟩ := List.forall_mem_cons.mp h
    simp only [List.flatMap_cons, writtenOutput, List.append_assoc] at hpart hne
    rw [List.length_cons, readOutputScripts]
    rcases prefix_append_cases hpart with ⟨-, hvalue⟩ | ⟨afterValue, rfl, hafterValue⟩
    · rw [length_putLE] at hvalue
      rw [if_pos hvalue]
      rfl
    have hroom : ¬(putLE 8 output.value ++ afterValue).length < 8 := by
      rw [List.length_append, length_putLE]
      omega
    rw [if_neg hroom, List.drop_left' (length_putLE 8 output.value)]
    rcases prefix_append_cases hafterValue with ⟨hcount, hlength⟩ | ⟨afterCount, rfl, hafterCount⟩
    · rw [readVarInt_short hshort hcount hlength]
      rfl
    rw [readVarInt_putVarInt hshort]
    rcases prefix_append_cases hafterCount with ⟨-, hscript⟩ | ⟨tail, rfl, htail⟩
    · simp only [bind, Except.bind, pure, Except.pure, if_pos hscript]
      rfl
    · have hfits : ¬(output.scriptPubKey ++ tail).length < output.scriptPubKey.length := by
        rw [List.length_append]
        omega
      have hrest : tail ≠ outputs.flatMap writtenOutput := by
        rintro rfl
        exact hne rfl
      simp only [bind, Except.bind, if_neg hfits, List.drop_left, ih hothers htail hrest]

end

/-! ### The result -/

/-- Either encoder and either reader agree on every count, and a list of outputs whose lengths the
registry can read is read back as its scripts, but no part of it that stops short. -/
theorem varints_and_outputs_read_back :
    ReadsBack CustomWorkService.encodeBitcoinVarInt ∧
      ReadsBack Sv2TemplateDistributionConnection.encodeBitcoinVarInt ∧
      ∀ outputs : List CoinbaseOutput, outputs.length < 2 ^ 32 →
        (∀ output ∈ outputs, ShortScript output) → ∀ bytes,
          Sv2JobDeclarationConnection.serializeCoinbaseOutputs outputs = some bytes →
            extractOutputScripts bytes = .ok (outputs.map (·.scriptPubKey)) ∧
              ∀ part, part <+: bytes → part ≠ bytes →
                extractOutputScripts part = .error "invalid-coinbase-outputs" := by
  refine ⟨readsBack_encodeBitcoinVarInt, readsBack_encodeBitcoinVarInt, ?_⟩
  intro outputs hcount hscripts bytes hserialize
  obtain rfl := serializeCoinbaseOutputs_eq_some hserialize
  constructor
  · have hread := readOutputScripts_written hscripts []
    rw [List.append_nil] at hread
    rw [extractOutputScripts, readVarInt_putVarInt hcount]
    exact hread
  · intro part hpart hne
    rw [extractOutputScripts]
    rcases prefix_append_cases hpart with ⟨hshort, hlength⟩ | ⟨tail, rfl, htail⟩
    · rw [readVarInt_short hcount hshort hlength]
      rfl
    · rw [readVarInt_putVarInt hcount]
      refine readOutputScripts_short hscripts htail ?_
      rintro rfl
      exact hne rfl

/-- Two outputs, the second with a script of 300 bytes, and their first ten bytes. -/
theorem varints_and_outputs_read_back_sample :
    let outputs : List CoinbaseOutput := [⟨5, [0x51]⟩, ⟨0, List.replicate 300 0x6a⟩]
    ∃ bytes, Sv2JobDeclarationConnection.serializeCoinbaseOutputs outputs = some bytes ∧
      extractOutputScripts bytes = .ok [[0x51], List.replicate 300 0x6a] ∧
      extractOutputScripts (bytes.take 10) = .error "invalid-coinbase-outputs" := by
  intro outputs
  have hsome : (Sv2JobDeclarationConnection.serializeCoinbaseOutputs outputs).isSome := by
    decide +kernel
  obtain ⟨bytes, hbytes⟩ := Option.isSome_iff_exists.mp hsome
  have hlong : ∀ bytes ∈ Sv2JobDeclarationConnection.serializeCoinbaseOutputs outputs,
      bytes.take 10 ≠ bytes := by decide +kernel
  have hshort : ∀ output ∈ outputs, ShortScript output := by
    simp only [outputs, List.forall_mem_cons, ShortScript, List.length_replicate,
      List.length_singleton]
    norm_num
  obtain ⟨hscripts, hparts⟩ := varints_and_outputs_read_back.2.2 outputs (by decide) hshort bytes
    hbytes
  exact ⟨bytes, hbytes, hscripts, hparts _ (List.take_prefix 10 bytes) (hlong bytes hbytes)⟩

end PublicPool.Proofs
