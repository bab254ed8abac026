import PublicPool.Proofs.TransactionLayout

/-!
# `PublicPool.Proofs.PrefixHeight`: the height in a declared coinbase

`validateDeclaredCoinbasePrefixHeight` walks a coinbase prefix by hand up to the script of its input
and looks for the height there. `validateCoinbaseTransactionHeight` looks for it in the script of the
assembled transaction. When they agree is `prefix_height_iff`.

They differ in two ways. The walk reads the length of the script and drops it, so the height it finds
may stand behind the end of a script that is too short for it (`not_prefix_height_agrees`). And a
prefix in which the walk does not get to a script is taken for a script itself: the height is then
found in the version of the transaction, and says nothing about the script.
-/

set_option autoImplicit false

namespace PublicPool.Proofs

open TxCodec

/-! ### The walk over a longer coinbase -/

/-- What a count reads does not depend on the bytes behind it. -/
theorem readBitcoinVarInt_append {b rest : Bytes} {value : ℕ}
    (h : readBitcoinVarInt b = some (value, rest)) (more : Bytes) :
    readBitcoinVarInt (b ++ more) = some (value, rest ++ more) := by
  cases b with
  | nil => cases h
  | cons first bytes =>
    simp only [readBitcoinVarInt, List.cons_append] at h ⊢
    generalize (if first < 0xfd then 0 else if first = 0xfd then 2 else if first = 0xfe then 4
      else 8 : ℕ) = width at h ⊢
    split at h
    · rename_i hzero
      obtain ⟨rfl, rfl⟩ := Prod.mk.inj (Option.some.inj h)
      rw [if_pos hzero]
    · rename_i hwide
      split at h
      · cases h
      · rename_i hlong
        obtain ⟨rfl, rfl⟩ := Prod.mk.inj (Option.some.inj h)
        have hle : width ≤ bytes.length := Nat.not_lt.mp hlong
        rw [if_neg hwide, if_neg (by rw [List.length_append]; omega),
          List.take_append_of_le_length hle, List.drop_append_of_le_length hle]

theorem skipSegwitMarker_of_ne {first : UInt8} (hfirst : first ≠ 0x00) (bytes : Bytes) :
    skipSegwitMarker (first :: bytes) = first :: bytes := by
  unfold skipSegwitMarker
  split
  · rename_i heq
    exact absurd (List.cons.inj heq).1 hfirst
  · rfl

/-- The walk skips the same marker, unless the bytes end within it. -/
theorem skipSegwitMarker_append {b : Bytes} (hsome : b ≠ []) (hzero : b ≠ [0x00]) (more : Bytes) :
    skipSegwitMarker (b ++ more) = skipSegwitMarker b ++ more := by
  cases b with
  | nil => exact absurd rfl hsome
  | cons first bytes =>
    by_cases hfirst : first = 0x00
    · subst hfirst
      cases bytes with
      | nil => exact absurd rfl hzero
      | cons flag bytes =>
        show (if flag = 0x00 then _ else _) = (if flag = 0x00 then _ else _) ++ more
        split <;> rfl
    · rw [skipSegwitMarker_of_ne hfirst, List.cons_append, skipSegwitMarker_of_ne hfirst]

/-- A script that the walk finds in a prefix is found in every coinbase that starts with it. -/
theorem inputScriptField_append {b script : Bytes} {length : ℕ}
    (h : inputScriptField b = some (length, script)) (more : Bytes) :
    inputScriptField (b ++ more) = some (length, script ++ more) := by
  unfold inputScriptField at h
  obtain ⟨⟨inputCount, rest⟩, hcount, h⟩ := Option.bind_eq_some_iff.mp h
  dsimp only at h
  split at h
  · cases h
  · rename_i hnot
    obtain ⟨hone, hlength⟩ := not_or.mp hnot
    replace hone := not_not.mp hone
    have hsome : b.drop 4 ≠ [] := by
      intro hnil
      rw [hnil] at hcount
      cases hcount
    have hzero : b.drop 4 ≠ [0x00] := by
      intro hmarker
      rw [hmarker] at hcount
      obtain ⟨hcount, -⟩ := Prod.mk.inj (Option.some.inj hcount)
      rw [hone] at hcount
      cases hcount
    have hhead : (b ++ more).drop 4 = b.drop 4 ++ more := by
      refine List.drop_append_of_le_length ?_
      by_contra hshort
      exact hsome (List.drop_eq_nil_of_le (by omega))
    have hdrop : (rest ++ more).drop 36 = rest.drop 36 ++ more :=
      List.drop_append_of_le_length (Nat.not_lt.mp hlength)
    have hmore : ¬(inputCount ≠ 1 ∨ (rest ++ more).length < 36) := by
      rw [List.length_append]
      omega
    unfold inputScriptField
    rw [hhead, skipSegwitMarker_append hsome hzero, readBitcoinVarInt_append hcount]
    simp only [Option.bind_eq_bind, Option.bind_some, if_neg hmore, hdrop]
    exact readBitcoinVarInt_append h more

/-! ### The two checks -/

section
variable (host : Externals)

theorem validateCoinbaseScriptHeight_eq_none {script : Bytes} {height : ℤ} :
    validateCoinbaseScriptHeight host script height = none ↔
      buildCoinbaseHeightPrefix host height <+: script := by
  unfold validateCoinbaseScriptHeight
  split
  · rename_i h
    exact iff_of_true rfl h
  · rename_i h
    exact iff_of_false (by decide) h

/-- Whether a declared prefix puts the height into the script, with the rest of the coinbase behind
it. A script that the prefix locates must be long enough for the height. Where the prefix ends before
the script, the extranonce and the suffix must write the height. -/
def PutsHeightInScript (coinbaseTxPrefix rest : Bytes) (height : ℤ) : Prop :=
  (∀ length script, inputScriptField coinbaseTxPrefix = some (length, script) →
    (buildCoinbaseHeightPrefix host height).length ≤ length) ∧
  (inputScriptField coinbaseTxPrefix = none →
    ∃ length script, inputScriptField (coinbaseTxPrefix ++ rest) = some (length, script) ∧
      buildCoinbaseHeightPrefix host height <+: script.take length)

variable {host}

/-- The check of the assembled coinbase, on the bytes. -/
theorem validateCoinbaseTransactionHeight_eq_none (hformat : ReadsFormat host) {b : Bytes}
    {tx : Transaction} {input : TxInput} (htx : host.fromBuffer b = some tx)
    (hinput : tx.ins = [input]) (height : ℤ) :
    ∃ length script, inputScriptField b = some (length, script) ∧
      (validateCoinbaseTransactionHeight host b height = none ↔
        buildCoinbaseHeightPrefix host height <+: script.take length) := by
  obtain ⟨length, script, hfield, -, htake⟩ := script_of_deserialize (hformat _ _ htx) hinput
  refine ⟨length, script, hfield, ?_⟩
  unfold validateCoinbaseTransactionHeight
  simp only [htx, hinput]
  rw [validateCoinbaseScriptHeight_eq_none, htake]

/-- Of a coinbase prefix whose height was accepted, and an extranonce and a suffix with which it is a
transaction with one input, the height is accepted just when the prefix puts it into the script. -/
theorem prefix_height_iff (hformat : ReadsFormat host) {coinbaseTxPrefix : Bytes} {height : ℤ}
    (haccepted : validateDeclaredCoinbasePrefixHeight host coinbaseTxPrefix height = none)
    {extranonce coinbaseTxSuffix : Bytes} {tx : Transaction} {input : TxInput}
    (htx : host.fromBuffer (coinbaseTxPrefix ++ extranonce ++ coinbaseTxSuffix) = some tx)
    (hinput : tx.ins = [input]) :
    validateCoinbaseTransactionHeight host (coinbaseTxPrefix ++ extranonce ++ coinbaseTxSuffix)
        height = none ↔
      PutsHeightInScript host coinbaseTxPrefix (extranonce ++ coinbaseTxSuffix) height := by
  rw [List.append_assoc] at htx ⊢
  obtain ⟨length, script, hfield, hcheck⟩ :=
    validateCoinbaseTransactionHeight_eq_none hformat htx hinput height
  rw [hcheck, PutsHeightInScript]
  rw [validateDeclaredCoinbasePrefixHeight, validateCoinbaseScriptHeight_eq_none,
    coinbaseInputScript_eq] at haccepted
  cases hlocated : inputScriptField coinbaseTxPrefix with
  | none =>
    rw [hfield]
    constructor
    · intro hprefix
      refine ⟨?_, fun _ => ⟨length, script, rfl, hprefix⟩⟩
      intro _ _ h
      cases h
    · rintro ⟨-, hwritten⟩
      obtain ⟨length', script', heq, hprefix⟩ := hwritten rfl
      obtain ⟨rfl, rfl⟩ := Prod.mk.inj (Option.some.inj heq)
      exact hprefix
  | some located =>
    -- the script of the coinbase goes on from what the prefix has of it
    obtain ⟨length', start⟩ := located
    rw [inputScriptField_append hlocated] at hfield
    obtain ⟨rfl, rfl⟩ := Prod.mk.inj (Option.some.inj hfield)
    rw [hlocated] at haccepted
    have hstart : buildCoinbaseHeightPrefix host height <+: start ++ (extranonce ++ coinbaseTxSuffix) :=
      List.IsPrefix.trans haccepted (List.prefix_append _ _)
    rw [List.prefix_take_iff]
    constructor
    · rintro ⟨-, hle⟩
      constructor
      · intro length script heq
        obtain ⟨rfl, rfl⟩ := Prod.mk.inj (Option.some.inj heq)
        exact hle
      · intro h
        cases h
    · rintro ⟨hle, -⟩
      exact ⟨hstart, hle _ _ rfl⟩

end

/-! ### A declared coinbase with a short script -/

namespace PrefixHeightSample

def host : Externals := Externals.reference (fun _ => Digest.ofNat 0) []

/-- A coinbase up to the extranonce, which its one output carries in its script. The script of the
input has `length` bytes by its length byte; the height push and a sequence number follow. -/
def coinbaseTxPrefix (length : UInt8) : Bytes :=
  [1, 0, 0, 0] ++ [1] ++ List.replicate 36 0 ++ [length, 0x03, 0x20, 0xa1, 0x07, 0xff, 0xff]
    ++ (if length = 4 then [0xff, 0xff] else []) ++ [1] ++ List.replicate 8 0 ++ [8]

def extranonce : Bytes := List.replicate 8 0x2a

/-- The lock time. -/
def coinbaseTxSuffix : Bytes := [0, 0, 0, 0]

end PrefixHeightSample

open PrefixHeightSample in
/-- With two bytes of script, two bytes of the height are the front of the sequence number. -/
theorem not_prefix_height_agrees :
    ∃ tx input,
      validateDeclaredCoinbasePrefixHeight host (coinbaseTxPrefix 2) 500000 = none ∧
      host.fromBuffer (coinbaseTxPrefix 2 ++ extranonce ++ coinbaseTxSuffix) = some tx ∧
      tx.ins = [input] ∧
      validateCoinbaseTransactionHeight host
        (coinbaseTxPrefix 2 ++ extranonce ++ coinbaseTxSuffix) 500000
          = some "invalid-job-param-value-coinbase_tx_prefix" :=
  ⟨_, _, by decide +kernel, rfl, rfl, by decide +kernel⟩

open PrefixHeightSample in
theorem prefix_height_iff_sample :
    validateCoinbaseTransactionHeight host (coinbaseTxPrefix 4 ++ extranonce ++ coinbaseTxSuffix)
        500000 = none ↔
      PutsHeightInScript host (coinbaseTxPrefix 4) (extranonce ++ coinbaseTxSuffix) 500000 :=
  prefix_height_iff (readsFormat_reference _ _) (by decide +kernel) rfl rfl

end PublicPool.Proofs
