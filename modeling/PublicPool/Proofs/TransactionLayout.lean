import PublicPool.TemplateBlocks
import PublicPool.TxCodec

/-!
# `PublicPool.Proofs.TransactionLayout`: where the scripts of a transaction stand

The transaction package is not part of this repository. What the results below need of it is that it
reads the format of `TxCodec`, which is `ReadsFormat`; it may reject more.

Two places are of interest. `inputScriptField` is the script of a single input, found the way the
template provider finds it in a coinbase prefix (`script_of_deserialize`). `outputScriptFields` lists
where the scripts of the outputs start and how long they are (`outs_of_deserialize`): a reader that
keeps the offset instead of the bytes, read next to the one of the format.
-/

set_option autoImplicit false

namespace PublicPool.Proofs

open TxCodec

/-- What the package reads as a transaction is one in the format of `TxCodec`. -/
def ReadsFormat (host : Externals) : Prop :=
  ∀ b tx, host.fromBuffer b = some tx → deserialize b = some tx

theorem readsFormat_reference (hash256 : Bytes → Digest) (scripts : List (String × Bytes)) :
    ReadsFormat (Externals.reference hash256 scripts) := fun _ _ h => h

/-! ### Readers -/

section
variable {α β : Type}

variable {reader : Reader α} {b rest : Bytes} {n : ℕ}

theorem run_bind_eq_some {next : α → Reader β} {y : β} :
    (reader >>= next).run b = some (y, rest) ↔
      ∃ x left, reader.run b = some (x, left) ∧ (next x).run left = some (y, rest) := by
  rw [StateT.run_bind, Option.bind_eq_bind, Option.bind_eq_some_iff]
  constructor
  · rintro ⟨⟨x, left⟩, hreader, hnext⟩
    exact ⟨x, left, hreader, hnext⟩
  · rintro ⟨x, left, hreader, hnext⟩
    exact ⟨(x, left), hreader, hnext⟩

theorem run_pure_eq_some {x y : α} :
    (pure x : Reader α).run b = some (y, rest) ↔ x = y ∧ b = rest := by
  show some (x, b) = some (y, rest) ↔ _
  rw [Option.some.injEq, Prod.mk.injEq]

theorem run_getBytes_eq_some {x : Bytes} :
    (getBytes n).run b = some (x, rest) ↔ n ≤ b.length ∧ x = b.take n ∧ rest = b.drop n := by
  show (if n ≤ b.length then some (b.take n, b.drop n) else none) = some (x, rest) ↔ _
  split
  · rename_i hle
    rw [Option.some.injEq, Prod.mk.injEq]
    constructor
    · rintro ⟨rfl, rfl⟩
      exact ⟨hle, rfl, rfl⟩
    · rintro ⟨-, rfl, rfl⟩
      exact ⟨rfl, rfl⟩
  · rename_i hnot
    constructor
    · intro h
      cases h
    · intro h
      exact absurd h.1 hnot

theorem run_getLE_eq_some {value : ℕ} :
    (getLE n).run b = some (value, rest) ↔
      n ≤ b.length ∧ value = leValue (b.take n) ∧ rest = b.drop n := by
  rw [getLE, run_bind_eq_some]
  simp only [run_getBytes_eq_some, run_pure_eq_some]
  constructor
  · rintro ⟨x, left, ⟨hle, rfl, rfl⟩, rfl, rfl⟩
    exact ⟨hle, rfl, rfl⟩
  · rintro ⟨hle, rfl, rfl⟩
    exact ⟨_, _, ⟨hle, rfl, rfl⟩, rfl, rfl⟩

/-- The package and the template provider read the same counts. -/
theorem run_getVarInt (b : Bytes) : getVarInt.run b = readBitcoinVarInt b := by
  cases b with
  | nil => rfl
  | cons first rest =>
    have hfirst : (getLE 1).run (first :: rest) = some (first.toNat, rest) :=
      run_getLE_eq_some.mpr ⟨by simp, by simp [leValue], rfl⟩
    have hwide (n : ℕ) : (getLE n).run rest =
        if rest.length < n then none else some (leValue (rest.take n), rest.drop n) := by
      by_cases hlt : rest.length < n
      · rw [if_pos hlt]
        refine Option.eq_none_iff_forall_not_mem.mpr ?_
        rintro ⟨value, left⟩ hmem
        have hle := (run_getLE_eq_some.mp hmem).1
        omega
      · rw [if_neg hlt]
        exact run_getLE_eq_some.mpr ⟨by omega, rfl, rfl⟩
    have hnat (n : ℕ) (hn : n < 256) : first.toNat = n ↔ first = UInt8.ofNat n := by
      rw [← UInt8.toNat_inj, UInt8.toNat_ofNat', Nat.mod_eq_of_lt (by omega)]
    rw [getVarInt, StateT.run_bind, hfirst]
    simp only [Option.bind_eq_bind, Option.bind_some]
    split
    · rename_i h
      obtain rfl := (hnat 0xfd (by decide)).mp h
      exact hwide 2
    · rename_i h
      obtain rfl := (hnat 0xfe (by decide)).mp h
      exact hwide 4
    · rename_i h
      obtain rfl := (hnat 0xff (by decide)).mp h
      exact hwide 8
    · rename_i h2 h4 h8
      have hbyte := first.toNat_lt
      have hne : first.toNat ≠ 0xfd ∧ first.toNat ≠ 0xfe ∧ first.toNat ≠ 0xff := ⟨h2, h4, h8⟩
      have hlt : first < 0xfd := by
        rw [UInt8.lt_iff_toNat_lt]
        show first.toNat < 253
        omega
      simp only [readBitcoinVarInt, hlt, if_true]
      rfl

theorem run_getSlice_eq_some {script : Bytes} :
    getSlice.run b = some (script, rest) ↔
      ∃ n left, readBitcoinVarInt b = some (n, left) ∧ n ≤ left.length ∧ script = left.take n ∧
        rest = left.drop n := by
  rw [getSlice, run_bind_eq_some]
  simp only [run_getVarInt, run_getBytes_eq_some]

/-- A reader that is used a number of times gives as many values. -/
theorem length_of_run_getMany {xs : List α} (h : (getMany reader n).run b = some (xs, rest)) :
    xs.length = n := by
  induction n generalizing b xs rest with
  | zero =>
    obtain ⟨rfl, -⟩ := run_pure_eq_some.mp h
    rfl
  | succ n ih =>
    rw [getMany, run_bind_eq_some] at h
    obtain ⟨x, left, -, h⟩ := h
    obtain ⟨tail, left, htail, h⟩ := run_bind_eq_some.mp h
    obtain ⟨rfl, -⟩ := run_pure_eq_some.mp h
    rw [List.length_cons, ih htail]

end

/-! ### The script of a single input -/

/-- The length and the bytes from the script of a single input on. -/
def inputScriptField (b : Bytes) : Option (ℕ × Bytes) := do
  let (inputCount, rest) ← readBitcoinVarInt (skipSegwitMarker (b.drop 4))
  if inputCount ≠ 1 ∨ rest.length < 36 then none
  readBitcoinVarInt (rest.drop 36)

theorem coinbaseInputScript_eq (b : Bytes) :
    coinbaseInputScript b = (inputScriptField b).map Prod.snd := by
  unfold coinbaseInputScript inputScriptField
  cases readBitcoinVarInt (skipSegwitMarker (b.drop 4)) with
  | none => rfl
  | some field =>
    simp only [Option.bind_eq_bind, Option.bind_some]
    split
    · rfl
    · cases readBitcoinVarInt (field.2.drop 36) <;> rfl

section
variable {b rest : Bytes} {tx : Transaction} {input : TxInput}

/-- The witnesses are read on top of the inputs. -/
theorem scripts_of_getWitnesses {ins ins' : List TxInput}
    (h : (getWitnesses ins).run b = some (ins', rest)) :
    ins'.map (·.script) = ins.map (·.script) := by
  induction ins generalizing ins' b rest with
  | nil =>
    obtain ⟨rfl, -⟩ := run_pure_eq_some.mp h
    rfl
  | cons input ins ih =>
    rw [getWitnesses, run_bind_eq_some] at h
    obtain ⟨n, left, -, h⟩ := h
    obtain ⟨witness, left, -, h⟩ := run_bind_eq_some.mp h
    obtain ⟨tail, left, htail, h⟩ := run_bind_eq_some.mp h
    obtain ⟨rfl, -⟩ := run_pure_eq_some.mp h
    rw [List.map_cons, List.map_cons, ih htail]

/-- The parts of a transaction, in the order in which they are read. -/
theorem parts_of_deserialize (h : deserialize b = some tx) :
    ∃ hasWitness head inputCount inputs ins outputCount outputs left,
      4 ≤ b.length ∧ getSegwitMarker.run (b.drop 4) = some (hasWitness, head) ∧
      readBitcoinVarInt head = some (inputCount, inputs) ∧
      (getMany getInput inputCount).run inputs = some (ins, left) ∧
      ins.map (·.script) = tx.ins.map (·.script) ∧
      ∃ rest, readBitcoinVarInt left = some (outputCount, outputs) ∧
        (getMany getOutput outputCount).run outputs = some (tx.outs, rest) := by
  unfold deserialize at h
  split at h
  · rename_i tx' hrun
    obtain rfl := Option.some.inj h
    replace hrun : getTransaction.run b = some (tx', []) := hrun
    rw [getTransaction, run_bind_eq_some] at hrun
    obtain ⟨version, left, hversion, hrun⟩ := hrun
    obtain ⟨hasWitness, head, hmarker, hrun⟩ := run_bind_eq_some.mp hrun
    obtain ⟨inputCount, inputs, hcount, hrun⟩ := run_bind_eq_some.mp hrun
    obtain ⟨ins, afterInputs, hins, hrun⟩ := run_bind_eq_some.mp hrun
    obtain ⟨outputCount, outputs, houtputCount, hrun⟩ := run_bind_eq_some.mp hrun
    obtain ⟨outs, afterOutputs, houts, hrun⟩ := run_bind_eq_some.mp hrun
    have hparts : ins.map (·.script) = tx'.ins.map (·.script) ∧ tx'.outs = outs := by
      cases hasWitness with
      | true =>
        obtain ⟨ins', afterWitnesses, hwitnesses, hrun⟩ := run_bind_eq_some.mp hrun
        obtain ⟨locktime, afterLocktime, -, hrun⟩ := run_bind_eq_some.mp hrun
        obtain ⟨rfl, -⟩ := run_pure_eq_some.mp hrun
        exact ⟨(scripts_of_getWitnesses hwitnesses).symm, rfl⟩
      | false =>
        obtain ⟨ins', afterWitnesses, hwitnesses, hrun⟩ := run_bind_eq_some.mp hrun
        obtain ⟨rfl, -⟩ := run_pure_eq_some.mp hwitnesses
        obtain ⟨locktime, afterLocktime, -, hrun⟩ := run_bind_eq_some.mp hrun
        obtain ⟨rfl, -⟩ := run_pure_eq_some.mp hrun
        exact ⟨rfl, rfl⟩
    obtain ⟨hscripts, rfl⟩ := hparts
    obtain ⟨hlength, -, rfl⟩ := run_getLE_eq_some.mp hversion
    rw [run_getVarInt] at hcount houtputCount
    exact ⟨hasWitness, head, inputCount, inputs, ins, outputCount, outputs, afterInputs, hlength,
      hmarker, hcount, hins, hscripts, afterOutputs, houtputCount, houts⟩
  · cases h

/-- Past the marker the template provider and the package go on from the same byte, unless the
package would read no input at all. -/
theorem skipSegwitMarker_of_run {head : Bytes} {hasWitness : Bool} {count : ℕ}
    (hmarker : getSegwitMarker.run b = some (hasWitness, head))
    (hcount : readBitcoinVarInt head = some (count, rest)) (hsome : count ≠ 0) :
    skipSegwitMarker b = head := by
  simp only [getSegwitMarker, StateT.run] at hmarker
  unfold skipSegwitMarker
  split at hmarker
  · obtain ⟨-, rfl⟩ := Prod.mk.inj (Option.some.inj hmarker)
    rfl
  · obtain ⟨-, rfl⟩ := Prod.mk.inj (Option.some.inj hmarker)
    split
    · -- a zero byte that is no marker is a count of zero
      have hzero : count = 0 := by
        simp only [readBitcoinVarInt] at hcount
        obtain ⟨rfl, -⟩ := Prod.mk.inj (Option.some.inj hcount)
        rfl
      exact absurd hzero hsome
    · rfl

/-- The input that is read when there is one. -/
theorem script_of_getInput (h : getInput.run b = some (input, rest)) :
    36 ≤ b.length ∧ ∃ length left, readBitcoinVarInt (b.drop 36) = some (length, left) ∧
      length ≤ left.length ∧ input.script = left.take length := by
  rw [getInput] at h
  obtain ⟨hash, afterHash, hhash, h⟩ := run_bind_eq_some.mp h
  obtain ⟨index, afterIndex, hindex, h⟩ := run_bind_eq_some.mp h
  obtain ⟨script, afterScript, hscript, h⟩ := run_bind_eq_some.mp h
  obtain ⟨sequence, afterSequence, -, h⟩ := run_bind_eq_some.mp h
  obtain ⟨rfl, -⟩ := run_pure_eq_some.mp h
  obtain ⟨hlength, -, rfl⟩ := run_getBytes_eq_some.mp hhash
  obtain ⟨hleft, -, rfl⟩ := run_getLE_eq_some.mp hindex
  obtain ⟨length, left, hread, hle, rfl, -⟩ := run_getSlice_eq_some.mp hscript
  rw [List.length_drop] at hleft
  rw [List.drop_drop] at hread
  exact ⟨by omega, length, left, hread, hle, rfl⟩

/-- The script of a single input is where the template provider looks for it. -/
theorem script_of_deserialize (h : deserialize b = some tx) (hinput : tx.ins = [input]) :
    ∃ length rest, inputScriptField b = some (length, rest) ∧ length ≤ rest.length ∧
      input.script = rest.take length := by
  obtain ⟨hasWitness, head, inputCount, inputs, ins, outputCount, outputs, left, hversion, hmarker,
    hcount, hins, hscripts, -⟩ := parts_of_deserialize h
  have hone : inputCount = 1 := by
    rw [← length_of_run_getMany hins, ← List.length_map (·.script), hscripts, hinput]
    rfl
  subst hone
  rw [getMany] at hins
  obtain ⟨first, afterFirst, hfirst, hins⟩ := run_bind_eq_some.mp hins
  obtain ⟨none', afterNone, hnone, hins⟩ := run_bind_eq_some.mp hins
  obtain ⟨rfl, -⟩ := run_pure_eq_some.mp hnone
  obtain ⟨rfl, -⟩ := run_pure_eq_some.mp hins
  have hscript : first.script = input.script := by
    simpa [hinput] using hscripts
  obtain ⟨hlength, length, rest, hread, hle, htake⟩ := script_of_getInput hfirst
  refine ⟨length, rest, ?_, hle, hscript.symm.trans htake⟩
  have hskip := skipSegwitMarker_of_run hmarker hcount (by decide)
  simp [inputScriptField, hskip, hcount, hread, Nat.not_lt.mpr hlength]

end

/-! ### The scripts of the outputs -/

/-- Where a script stands in the bytes of a transaction. -/
structure ScriptField where
  offset : ℕ
  length : ℕ
  deriving DecidableEq, Repr

/-- The bytes of a field. -/
def ScriptField.script (field : ScriptField) (b : Bytes) : Bytes :=
  (b.drop field.offset).take field.length

/-- An output of which only the place of the script is kept; `size` is the number of bytes of the
whole transaction. -/
def getScriptField (size : ℕ) : Reader ScriptField := do
  let _ ← getLE 8
  let length ← getVarInt
  let left ← get
  let _ ← getBytes length
  return { offset := size - left.length, length }

/-- A transaction up to its outputs, of which the script fields are kept. -/
def getOutputScriptFields (size : ℕ) : Reader (List ScriptField) := do
  let _ ← getLE 4
  let _ ← getSegwitMarker
  let inputCount ← getVarInt
  let _ ← getMany getInput inputCount
  let outputCount ← getVarInt
  getMany (getScriptField size) outputCount

/-- The script fields of the outputs. -/
def outputScriptFields (b : Bytes) : Option (List ScriptField) :=
  ((getOutputScriptFields b.length).run b).map Prod.fst

/-- A reader that takes bytes off the front and leaves the others. -/
def LeavesSuffix {α : Type} (reader : Reader α) : Prop :=
  ∀ b x rest, reader.run b = some (x, rest) → rest <:+ b

namespace LeavesSuffix

variable {α β : Type}

theorem pure (x : α) : LeavesSuffix (Pure.pure x : Reader α) := by
  intro b y rest h
  obtain ⟨-, rfl⟩ := run_pure_eq_some.mp h
  exact List.suffix_refl _

theorem bind {reader : Reader α} {next : α → Reader β} (hreader : LeavesSuffix reader)
    (hnext : ∀ x, LeavesSuffix (next x)) : LeavesSuffix (reader >>= next) := by
  intro b y rest h
  obtain ⟨x, left, hrun, h⟩ := run_bind_eq_some.mp h
  exact (hnext x left y rest h).trans (hreader b x left hrun)

theorem getBytes (n : ℕ) : LeavesSuffix (TxCodec.getBytes n) := by
  intro b x rest h
  obtain ⟨-, -, rfl⟩ := run_getBytes_eq_some.mp h
  exact List.drop_suffix _ _

theorem getLE (n : ℕ) : LeavesSuffix (TxCodec.getLE n) :=
  (getBytes n).bind fun _ => pure _

theorem getVarInt : LeavesSuffix TxCodec.getVarInt := by
  refine (getLE 1).bind fun n => ?_
  split
  · exact getLE 2
  · exact getLE 4
  · exact getLE 8
  · exact pure _

theorem getSlice : LeavesSuffix TxCodec.getSlice :=
  getVarInt.bind getBytes

theorem getMany {reader : Reader α} (h : LeavesSuffix reader) (n : ℕ) :
    LeavesSuffix (TxCodec.getMany reader n) := by
  induction n with
  | zero => exact pure _
  | succ n ih => exact h.bind fun _ => ih.bind fun _ => pure _

theorem getInput : LeavesSuffix TxCodec.getInput :=
  (getBytes 32).bind fun _ => (getLE 4).bind fun _ => getSlice.bind fun _ =>
    (getLE 4).bind fun _ => pure _

theorem getOutput : LeavesSuffix TxCodec.getOutput :=
  (getLE 8).bind fun _ => getSlice.bind fun _ => pure _

theorem getSegwitMarker : LeavesSuffix TxCodec.getSegwitMarker := by
  intro b x rest h
  simp only [TxCodec.getSegwitMarker, StateT.run] at h
  split at h
  · obtain ⟨-, rfl⟩ := Prod.mk.inj (Option.some.inj h)
    exact ⟨[0x00, 0x01], rfl⟩
  · obtain ⟨-, rfl⟩ := Prod.mk.inj (Option.some.inj h)
    exact List.suffix_refl _

end LeavesSuffix

section
variable {left b rest : Bytes}

/-- What is left of the bytes is what stands from the offset on. -/
theorem drop_of_suffix (h : left <:+ b) : b.drop (b.length - left.length) = left := by
  obtain ⟨front, rfl⟩ := h
  rw [List.length_append, Nat.add_sub_cancel, List.drop_left]

/-- One output: its script is what stands in its field. -/
theorem field_of_getOutput {output : TxOutput} (hsuffix : left <:+ b)
    (h : getOutput.run left = some (output, rest)) :
    ∃ field : ScriptField, (getScriptField b.length).run left = some (field, rest) ∧
      field.offset + field.length ≤ b.length ∧ output.script = field.script b := by
  rw [getOutput] at h
  obtain ⟨value, afterValue, hvalue, h⟩ := run_bind_eq_some.mp h
  obtain ⟨script, afterScript, hscript, h⟩ := run_bind_eq_some.mp h
  obtain ⟨rfl, rfl⟩ := run_pure_eq_some.mp h
  obtain ⟨length, bytes, hlength, hle, rfl, rfl⟩ := run_getSlice_eq_some.mp hscript
  rw [← run_getVarInt] at hlength
  have hbytes : bytes <:+ b := (LeavesSuffix.getVarInt _ _ _ hlength).trans
    ((LeavesSuffix.getLE _ _ _ _ hvalue).trans hsuffix)
  refine ⟨{ offset := b.length - bytes.length, length }, ?_, ?_, ?_⟩
  · rw [getScriptField]
    exact run_bind_eq_some.mpr ⟨value, afterValue, hvalue, run_bind_eq_some.mpr
      ⟨length, bytes, hlength, run_bind_eq_some.mpr ⟨bytes, bytes, rfl, run_bind_eq_some.mpr
        ⟨bytes.take length, bytes.drop length, run_getBytes_eq_some.mpr ⟨hle, rfl, rfl⟩, rfl⟩⟩⟩⟩
  · have := hbytes.length_le
    show b.length - bytes.length + length ≤ b.length
    omega
  · rw [ScriptField.script, drop_of_suffix hbytes]

/-- The outputs, one after the other. -/
theorem fields_of_getOutputs {n : ℕ} {outs : List TxOutput} (hsuffix : left <:+ b)
    (h : (getMany getOutput n).run left = some (outs, rest)) :
    ∃ fields, (getMany (getScriptField b.length) n).run left = some (fields, rest) ∧
      (∀ field ∈ fields, field.offset + field.length ≤ b.length) ∧
      outs.map (·.script) = fields.map (·.script b) := by
  induction n generalizing left outs with
  | zero =>
    obtain ⟨rfl, rfl⟩ := run_pure_eq_some.mp h
    exact ⟨[], rfl, by simp, rfl⟩
  | succ n ih =>
    rw [getMany] at h
    obtain ⟨output, afterOutput, houtput, h⟩ := run_bind_eq_some.mp h
    obtain ⟨tail, afterTail, htail, h⟩ := run_bind_eq_some.mp h
    obtain ⟨rfl, rfl⟩ := run_pure_eq_some.mp h
    obtain ⟨field, hfield, hwithin, hscript⟩ := field_of_getOutput hsuffix houtput
    obtain ⟨fields, hfields, hall, hscripts⟩ :=
      ih ((LeavesSuffix.getOutput _ _ _ houtput).trans hsuffix) htail
    refine ⟨field :: fields, ?_, ?_, ?_⟩
    · rw [getMany]
      exact run_bind_eq_some.mpr ⟨field, afterOutput, hfield, run_bind_eq_some.mpr
        ⟨fields, afterTail, hfields, rfl⟩⟩
    · exact List.forall_mem_cons.mpr ⟨hwithin, hall⟩
    · rw [List.map_cons, List.map_cons, hscript, hscripts]

/-- The scripts of the outputs are what stands in the script fields. -/
theorem outs_of_deserialize {tx : Transaction} (h : deserialize b = some tx) :
    ∃ fields, outputScriptFields b = some fields ∧
      (∀ field ∈ fields, field.offset + field.length ≤ b.length) ∧
      tx.outs.map (·.script) = fields.map (·.script b) := by
  obtain ⟨hasWitness, head, inputCount, inputs, ins, outputCount, outputs, left, hversion, hmarker,
    hcount, hins, -, rest, houtputCount, houtputs⟩ := parts_of_deserialize h
  rw [← run_getVarInt] at hcount houtputCount
  have hsuffix : outputs <:+ b := (LeavesSuffix.getVarInt _ _ _ houtputCount).trans
    ((LeavesSuffix.getInput.getMany _ _ _ _ hins).trans
      ((LeavesSuffix.getVarInt _ _ _ hcount).trans
        ((LeavesSuffix.getSegwitMarker _ _ _ hmarker).trans (List.drop_suffix _ _))))
  obtain ⟨fields, hfields, hwithin, hscripts⟩ := fields_of_getOutputs hsuffix houtputs
  have hrun : (getOutputScriptFields b.length).run b = some (fields, rest) := by
    rw [getOutputScriptFields]
    exact run_bind_eq_some.mpr ⟨_, _, run_getLE_eq_some.mpr ⟨hversion, rfl, rfl⟩,
      run_bind_eq_some.mpr ⟨_, _, hmarker, run_bind_eq_some.mpr ⟨_, _, hcount,
        run_bind_eq_some.mpr ⟨_, _, hins, run_bind_eq_some.mpr
          ⟨_, _, houtputCount, hfields⟩⟩⟩⟩⟩
  exact ⟨fields, by rw [outputScriptFields, hrun]; rfl, hwithin, hscripts⟩

end

end PublicPool.Proofs
