import PublicPool.Proofs.TransactionLayout

/-!
# `PublicPool.Proofs.WrittenOutputs`: the outputs of a written coinbase are read back

The pool writes its coinbases in the format of `TxCodec`: as a whole, or around an extranonce that
the miner fills in. Whoever reads such bytes reads the input and the outputs that were written
(`run_getInput_written`, `run_getOutputs_written`). The format has room for 64 bits in a value and
in a length, which is `Writable`.
-/

set_option autoImplicit false

namespace PublicPool.Proofs

open TxCodec

/-- An output that the format has room for. -/
structure Writable (output : TxOutput) : Prop where
  value_nonneg : 0 ≤ output.value
  value_lt : output.value < 2 ^ 64
  script : output.script.length < 2 ^ 64

/-! ### Numbers and slices -/

theorem run_getLE_putLE {k n : ℕ} (h : n < 256 ^ k) (rest : Bytes) :
    (getLE k).run (putLE k n ++ rest) = some (n, rest) := by
  refine run_getLE_eq_some.mpr ⟨by simp, ?_, ?_⟩
  · rw [List.take_left' (length_putLE k n), leValue_putLE, Nat.mod_eq_of_lt h]
  · rw [List.drop_left' (length_putLE k n)]

/-- A count after its marker byte. -/
theorem readBitcoinVarInt_wide {first : UInt8} {width n : ℕ} (rest : Bytes) (hzero : width ≠ 0)
    (hwidth : (if first < 0xfd then 0 else if first = 0xfd then 2 else if first = 0xfe then 4
      else 8) = width) (h : n < 256 ^ width) :
    readBitcoinVarInt (first :: putLE width n ++ rest) = some (n, rest) := by
  have hlength : ¬ (putLE width (n : ℤ) ++ rest).length < width := by simp
  rw [List.cons_append, readBitcoinVarInt]
  simp only [hwidth, if_neg hzero, if_neg hlength]
  rw [List.take_left' (length_putLE width n), List.drop_left' (length_putLE width n), leValue_putLE,
    Nat.mod_eq_of_lt h]

/-- A count is read as it was written. -/
theorem readBitcoinVarInt_putVarInt {n : ℕ} (h : n < 2 ^ 64) (rest : Bytes) :
    readBitcoinVarInt (putVarInt n ++ rest) = some (n, rest) := by
  unfold putVarInt
  split
  · rename_i hsmall
    have hbyte : putLE 1 (n : ℤ) = [UInt8.ofNat n] := by
      rw [putLE_succ, Nat.mod_eq_of_lt (by omega : n < 256)]
      rfl
    have hlt : UInt8.ofNat n < 0xfd := by
      rw [UInt8.lt_iff_toNat_lt, UInt8.toNat_ofNat', Nat.mod_eq_of_lt (by omega)]
      exact hsmall
    have hvalue : (UInt8.ofNat n).toNat = n := by
      rw [UInt8.toNat_ofNat', Nat.mod_eq_of_lt (by omega)]
    rw [hbyte, List.singleton_append, readBitcoinVarInt]
    simp only [hlt, if_true, hvalue]
  · split
    · exact readBitcoinVarInt_wide rest (by norm_num) (by decide) (by omega)
    · split
      · exact readBitcoinVarInt_wide rest (by norm_num) (by decide) (by omega)
      · exact readBitcoinVarInt_wide rest (by norm_num) (by decide) (by omega)

theorem run_getSlice_putSlice {b : Bytes} (h : b.length < 2 ^ 64) (rest : Bytes) :
    getSlice.run (putSlice b ++ rest) = some (b, rest) := by
  refine run_getSlice_eq_some.mpr ⟨b.length, b ++ rest, ?_, by simp, ?_, ?_⟩
  · rw [putSlice, List.append_assoc]
    exact readBitcoinVarInt_putVarInt h _
  · rw [List.take_left]
  · rw [List.drop_left]

/-! ### Outputs and the input -/

theorem run_getOutput_putOutput {output : TxOutput} (h : Writable output) (rest : Bytes) :
    getOutput.run (putOutput output ++ rest) = some (output, rest) := by
  obtain ⟨value, hvalue⟩ := Int.eq_ofNat_of_zero_le h.value_nonneg
  have hlt := h.value_lt
  have hread : (getLE 8).run (putOutput output ++ rest)
      = some (value, putSlice output.script ++ rest) := by
    rw [putOutput, hvalue, List.append_assoc]
    exact run_getLE_putLE (by omega) _
  rw [getOutput]
  refine run_bind_eq_some.mpr ⟨value, _, hread, run_bind_eq_some.mpr
    ⟨output.script, rest, run_getSlice_putSlice h.script rest, ?_⟩⟩
  rw [← hvalue]
  rfl

/-- The outputs, one after the other. -/
theorem run_getOutputs_written {outs : List TxOutput} (h : ∀ output ∈ outs, Writable output)
    (rest : Bytes) :
    (getMany getOutput outs.length).run (outs.flatMap putOutput ++ rest) = some (outs, rest) := by
  induction outs with
  | nil => rfl
  | cons output outs ih =>
    obtain ⟨hfirst, hothers⟩ := List.forall_mem_cons.mp h
    rw [List.length_cons, getMany, List.flatMap_cons, List.append_assoc]
    exact run_bind_eq_some.mpr ⟨output, _, run_getOutput_putOutput hfirst _, run_bind_eq_some.mpr
      ⟨outs, rest, ih hothers, rfl⟩⟩

/-- The one input of a coinbase, whose script is any bytes. -/
theorem run_getInput_written {hash script : Bytes} {index sequence : ℕ} (hhash : hash.length = 32)
    (hindex : index < 2 ^ 32) (hsequence : sequence < 2 ^ 32) (hscript : script.length < 2 ^ 64)
    (rest : Bytes) :
    (getMany getInput 1).run (hash ++ putLE 4 index ++ putSlice script ++ putLE 4 sequence ++ rest)
      = some ([{ hash, index, script, sequence, witness := [] }], rest) := by
  have hread : getInput.run (hash ++ putLE 4 index ++ putSlice script ++ putLE 4 sequence ++ rest)
      = some ({ hash, index, script, sequence, witness := [] }, rest) := by
    simp only [List.append_assoc]
    rw [getInput]
    refine run_bind_eq_some.mpr ⟨hash, _, run_getBytes_eq_some.mpr ⟨?_, ?_, rfl⟩,
      run_bind_eq_some.mpr ⟨index, putSlice script ++ (putLE 4 sequence ++ rest), ?_,
        run_bind_eq_some.mpr ⟨script, _, run_getSlice_putSlice hscript _,
          run_bind_eq_some.mpr ⟨sequence, rest, run_getLE_putLE (by omega) _, rfl⟩⟩⟩⟩
    · rw [List.length_append, hhash]
      omega
    · rw [List.take_left' hhash]
    · rw [List.drop_left' hhash]
      exact run_getLE_putLE (by omega) _
  rw [getMany]
  exact run_bind_eq_some.mpr ⟨_, rest, hread, rfl⟩

end PublicPool.Proofs
