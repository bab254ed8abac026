import PublicPool.Proofs.Sv1.DoubleCredit

/-!
# `PublicPool.Proofs.Sv1.BlockHeader`: the header of a share and the header of its block

A share is judged by `buildHeaderBuffer`, which writes the extranonce between the two parts that
the job cut its coinbase into. A found block is made by `copyAndUpdateBlock`, which puts the
extranonce into the input script and serializes the coinbase again. The cut is found by a search
for the script in the text of the coinbase, and `indexOf_script` says that it finds the script and
nothing before it: the pool's tag has a letter that the bytes before the script do not have, and it
does not repeat within the few bytes that come first in the script.

The first part has the length byte of a script with 12 bytes of extranonce. `Buffer.from(_, 'hex')`
stops at the first character that is no digit, so `fastHeader_eq_blockHeader_iff` asks for an
extranonce of digits only. The validators ask for 16 characters.
-/

set_option autoImplicit false

namespace PublicPool.Proofs

open Sv1
open TxCodec (putInput putOutput putSlice serialize)

/-! ### A text in a text -/

/-- A search finds what is nowhere earlier. -/
theorem indexOf_append {before part after : List Char}
    (hearlier : ∀ i < before.length, ¬ part <+: (before ++ part ++ after).drop i) :
    Js.indexOf (before ++ part ++ after) part = before.length := by
  have hfind : ((List.range ((before ++ part ++ after).length + 1)).find? fun i =>
      part.isPrefixOf ((before ++ part ++ after).drop i)) = some before.length := by
    rw [List.find?_range_eq_some]
    refine ⟨?_, ?_, fun i hi => ?_⟩
    · rw [List.isPrefixOf_iff_prefix, List.append_assoc, List.drop_left]
      exact List.prefix_append _ _
    · rw [List.mem_range, List.length_append, List.length_append]
      omega
    · rw [Bool.not_eq_true', ← Bool.not_eq_true, List.isPrefixOf_iff_prefix]
      exact hearlier i hi
  rw [Js.indexOf, hfind]

/-- A slice between two positions that do not count from the end. -/
theorem slice_eq (s : List Char) (start stop : ℕ) :
    Js.slice s start stop = (s.drop start).take (stop - start) := by
  have hposition : ∀ n : ℕ, (if (n : ℤ) < 0 then (s.length : ℤ) + n else n).toNat = n := by
    intro n
    rw [if_neg (by omega), Int.toNat_natCast]
  simp only [Js.slice, hposition]

theorem slice_left (x y : List Char) : Js.slice (x ++ y) 0 x.length = x := by
  have h := slice_eq (x ++ y) 0 x.length
  rwa [List.drop_zero, Nat.sub_zero, List.take_left] at h

theorem slice_right (x y : List Char) : Js.slice (x ++ y) x.length (x ++ y).length = y := by
  rw [slice_eq, List.drop_left, List.length_append, Nat.add_sub_cancel_left, List.take_length]

/-! ### Where the coinbase is cut -/

/-- The transaction package writes transactions in the Bitcoin format, and block heights in at
most five bytes. -/
structure WritesBitcoin (host : Externals) : Prop where
  legacy : ∀ tx, host.toLegacyBuffer tx = serialize false tx
  height : ∀ height, (host.scriptNumberEncode height).length ≤ 5

/-- What stands before the input script of a job's coinbase: the version, the number of inputs,
the outpoint of a coinbase and the length of the script. -/
def beforeScript : Bytes :=
  putLE 4 2 ++ putVarInt 1 ++ fit 32 (List.replicate 32 0) ++ putLE 4 0xffffffff ++ putVarInt 35

/-- What stands after the input script of a transaction with one input. -/
def afterScript (tx : Transaction) (input : TxInput) : Bytes :=
  putLE 4 input.sequence ++ putVarInt tx.outs.length ++ tx.outs.flatMap putOutput
    ++ putLE 4 tx.locktime

/-- The first character of the tag is nowhere before the script. -/
theorem notMem_beforeScript : '7' ∉ Js.toHex beforeScript := by decide +kernel

/-- The tag does not come again where it has begun, as far as the script could be moved. -/
theorem tag_not_shifted : ∀ d ∈ List.range 13, 0 < d → ∃ k ∈ List.range 38, d ≤ k ∧
    (Js.toHex coinbaseTag)[k]? ≠ (Js.toHex coinbaseTag)[k - d]? := by decide +kernel

section
variable {host : Externals}

/-- The script of every job has 35 bytes, room for the extranonce included. -/
theorem WritesBitcoin.length_script (h : WritesBitcoin host) (height : ℤ) :
    (coinbaseScript host height).length = 35 := by
  have hheight := h.height height
  have htag : coinbaseTag.length = 19 := by decide
  simp only [coinbaseScript, List.cons_append, List.length_cons, List.length_append, htag,
    List.length_replicate, totalExtranonceSizeBytes]
  omega

/-- The script is nowhere in the text of the coinbase before its place. -/
theorem WritesBitcoin.not_earlier (h : WritesBitcoin host) (height : ℤ) (after : List Char)
    {i : ℕ} (hi : i < (Js.toHex beforeScript).length) :
    ¬ Js.toHex (coinbaseScript host height)
      <+: (Js.toHex beforeScript ++ Js.toHex (coinbaseScript host height) ++ after).drop i := by
  rintro ⟨rest, hrest⟩
  have hbefore : (Js.toHex beforeScript).length = 84 := by decide +kernel
  have hscript : (Js.toHex (coinbaseScript host height)).length = 70 := by
    rw [Js.length_toHex, h.length_script]
  have htagLength : (Js.toHex coinbaseTag).length = 38 := by decide +kernel
  -- the characters of the tag, behind the `a` characters of the height
  obtain ⟨a, ha, htag⟩ : ∃ a ≤ 12, ∀ k < 38,
      (Js.toHex (coinbaseScript host height))[a + k]? = (Js.toHex coinbaseTag)[k]? := by
    refine ⟨2 * ((host.scriptNumberEncode height).length + 1), ?_, fun k hk => ?_⟩
    · have hheight := h.height height
      omega
    · rw [coinbaseScript, Js.toHex_append, Js.toHex_append, List.append_assoc,
        List.getElem?_append_right (by simp), Js.length_toHex, List.length_cons,
        Nat.add_sub_cancel_left, List.getElem?_append_left (by omega)]
  -- an occurrence at `i` puts the character at `i + j` of the text at `j` of the script
  have hchar : ∀ j < 70, (Js.toHex (coinbaseScript host height))[j]?
      = (Js.toHex beforeScript ++ Js.toHex (coinbaseScript host height) ++ after)[i + j]? := by
    intro j hj
    rw [← List.getElem?_drop, ← hrest, List.getElem?_append_left (by omega)]
  rw [hbefore] at hi
  by_cases hinside : i + a < 84
  · -- the tag would begin before the script
    have hfirst := hchar a (by omega)
    have hseven := htag 0 (by norm_num)
    rw [add_zero] at hseven
    rw [hseven, List.append_assoc, List.getElem?_append_left (by omega)] at hfirst
    have htagFirst : (Js.toHex coinbaseTag)[0]? = some '7' := by decide +kernel
    rw [htagFirst] at hfirst
    exact notMem_beforeScript (List.mem_of_getElem? hfirst.symm)
  · -- the tag would begin again within itself
    obtain ⟨k, hk, hdk, hne⟩ := tag_not_shifted (84 - i) (List.mem_range.mpr (by omega)) (by omega)
    rw [List.mem_range] at hk
    refine hne ?_
    rw [← htag k hk, ← htag (k - (84 - i)) (by omega), hchar (a + k) (by omega), List.append_assoc,
      List.getElem?_append_right (by omega), List.getElem?_append_left (by omega), hbefore]
    congr 1
    omega

/-- The search for the script finds its place. -/
theorem WritesBitcoin.indexOf_script (h : WritesBitcoin host) (height : ℤ) (after : List Char) :
    Js.indexOf (Js.toHex beforeScript ++ Js.toHex (coinbaseScript host height) ++ after)
      (Js.toHex (coinbaseScript host height)) = (Js.toHex beforeScript).length :=
  indexOf_append fun _ hi => h.not_earlier height after hi

end

/-! ### The two coinbases -/

/-- The first bytes of a text are those of its first characters. -/
theorem take_toHex_bytes {b : Bytes} {n : ℕ} (hn : n ≤ b.length) :
    (Js.toHex b).take (2 * n) = Js.toHex (b.take n) := by
  conv_lhs => rw [← List.take_append_drop n b, Js.toHex_append]
  refine List.take_left' ?_
  rw [Js.length_toHex, List.length_take, min_eq_left hn]

/-- The coinbase of a job has one input, with the script of its height. -/
theorem jobCoinbase_eq {host : Externals} {network : Network}
    {payoutInformation : List AddressObject} {jobTemplate : JobTemplate} {coinbase : Transaction}
    (h : jobCoinbase host network payoutInformation jobTemplate = some coinbase) :
    coinbase =
      { version := 2
        ins := [{
          hash := List.replicate 32 0
          index := 0xffffffff
          script := coinbaseScript host jobTemplate.blockData.height
          sequence := 0xffffffff
          witness := [List.replicate 32 0] }]
        outs := coinbase.outs
        locktime := 0 } := by
  simp only [jobCoinbase, createCoinbaseTransaction, Option.bind_eq_bind, Option.pure_def,
    Option.bind_eq_some_iff, Option.some.injEq] at h
  obtain ⟨created, ⟨outs, -, rfl⟩, rfl⟩ := h
  rfl

/-- A transaction with one input, around the script. -/
theorem serialize_single {tx : Transaction} {input : TxInput} (h : tx.ins = [input]) :
    serialize false tx
      = putLE 4 tx.version ++ putVarInt 1 ++ fit 32 input.hash ++ putLE 4 input.index
        ++ putVarInt input.script.length ++ input.script ++ afterScript tx input := by
  simp [serialize, h, putInput, putSlice, afterScript, List.append_assoc]

section
variable {host : Externals} {network : Network} {jobId : String}
  {payoutInformation : List AddressObject} {jobTemplate : JobTemplate}
  {payoutWorker : Option String} {now : ℕ} {job : MiningJob}

/-- What the job keeps of the script: everything but the room for the extranonce. -/
def scriptStart (host : Externals) (jobTemplate : JobTemplate) : Bytes :=
  (coinbaseScript host jobTemplate.blockData.height).take 23

/-- The bytes of the job's coinbase after its script. -/
def coinbaseEnd (job : MiningJob) : Bytes :=
  putLE 4 0xffffffff ++ putVarInt job.coinbaseTransaction.outs.length
    ++ job.coinbaseTransaction.outs.flatMap putOutput ++ putLE 4 0

theorem length_scriptStart (hbitcoin : WritesBitcoin host) :
    (scriptStart host jobTemplate).length = 23 := by
  rw [scriptStart, List.length_take, hbitcoin.length_script]
  rfl

/-- The parts of a job are cut out of the text of its coinbase. -/
theorem coinbaseParts_eq
    (hjob : MiningJob.create host network jobId payoutInformation jobTemplate payoutWorker now
      = some job) :
    let text := Js.toHex (host.toLegacyBuffer job.coinbaseTransaction)
    let script := Js.toHex (coinbaseScript host jobTemplate.blockData.height)
    job.coinbasePart1
        = Js.slice text 0 (Js.indexOf text script + script.length - totalExtranonceSizeBytes * 2) ∧
      job.coinbasePart2 = Js.slice text (Js.indexOf text script + script.length) text.length := by
  obtain ⟨-, -, -, -, -, hcoinbase⟩ := MiningJob.fields_create host hjob
  unfold MiningJob.create at hjob
  rw [hcoinbase, Option.bind_eq_bind, Option.bind_some] at hjob
  split at hjob
  · have hcreated := Option.some.inj hjob
    exact ⟨(congrArg MiningJob.coinbasePart1 hcreated).symm,
      (congrArg MiningJob.coinbasePart2 hcreated).symm⟩
  · cases hjob

/-- The bytes before and after the extranonce of a job's coinbase. -/
theorem bufferFromHex_coinbaseParts (hbitcoin : WritesBitcoin host)
    (hjob : MiningJob.create host network jobId payoutInformation jobTemplate payoutWorker now
      = some job) :
    Js.bufferFromHex job.coinbasePart1 = beforeScript ++ scriptStart host jobTemplate ∧
      Js.bufferFromHex job.coinbasePart2 = coinbaseEnd job := by
  have hscript := hbitcoin.length_script jobTemplate.blockData.height
  have hbefore : (Js.toHex beforeScript).length = 84 := by decide +kernel
  obtain ⟨-, -, -, -, -, hcoinbase⟩ := MiningJob.fields_create host hjob
  obtain ⟨hpart1, hpart2⟩ := coinbaseParts_eq hjob
  have hserialized : host.toLegacyBuffer job.coinbaseTransaction
      = beforeScript ++ coinbaseScript host jobTemplate.blockData.height ++ coinbaseEnd job := by
    have heq := jobCoinbase_eq hcoinbase
    rw [hbitcoin.legacy, heq, serialize_single rfl, hscript]
    rfl
  -- the cut is behind the script, and the room for the extranonce is left out
  have hcut : Js.indexOf (Js.toHex (host.toLegacyBuffer job.coinbaseTransaction))
      (Js.toHex (coinbaseScript host jobTemplate.blockData.height))
        + (Js.toHex (coinbaseScript host jobTemplate.blockData.height)).length = 154 := by
    rw [hserialized, Js.toHex_append, Js.toHex_append, hbitcoin.indexOf_script, hbefore,
      Js.length_toHex, hscript]
    rfl
  have hpart1 : job.coinbasePart1 = Js.toHex (beforeScript ++ scriptStart host jobTemplate) := by
    have hsplit : Js.toHex (host.toLegacyBuffer job.coinbaseTransaction)
        = Js.toHex (beforeScript ++ scriptStart host jobTemplate)
          ++ Js.toHex ((coinbaseScript host jobTemplate.blockData.height).drop 23
            ++ coinbaseEnd job) := by
      rw [hserialized, ← Js.toHex_append, scriptStart]
      conv_lhs => rw [← List.take_append_drop 23 (coinbaseScript host _)]
      simp only [List.append_assoc]
    have hlength : ((Js.toHex (beforeScript ++ scriptStart host jobTemplate)).length : ℤ)
        = 154 - (totalExtranonceSizeBytes : ℤ) * 2 := by
      rw [Js.toHex_append, List.length_append, hbefore, Js.length_toHex,
        length_scriptStart hbitcoin]
      rfl
    rw [hpart1, hcut, ← hlength, hsplit, slice_left]
  have hpart2 : job.coinbasePart2 = Js.toHex (coinbaseEnd job) := by
    have hsplit : Js.toHex (host.toLegacyBuffer job.coinbaseTransaction)
        = Js.toHex (beforeScript ++ coinbaseScript host jobTemplate.blockData.height)
          ++ Js.toHex (coinbaseEnd job) := by
      rw [hserialized, Js.toHex_append]
    have hlength : ((Js.toHex (beforeScript
        ++ coinbaseScript host jobTemplate.blockData.height)).length : ℤ) = 154 := by
      rw [Js.toHex_append, List.length_append, hbefore, Js.length_toHex, hscript]
      rfl
    rw [hpart2, hcut, ← hlength, hsplit, slice_right]
  rw [hpart1, hpart2]
  exact ⟨Js.bufferFromHex_toHex _, Js.bufferFromHex_toHex _⟩

/-- The coinbase that a share hashes. -/
theorem coinbaseBytes_eq (hbitcoin : WritesBitcoin host)
    (hjob : MiningJob.create host network jobId payoutInformation jobTemplate payoutWorker now
      = some job) (extraNonce extraNonce2 : List Char) :
    job.coinbaseBytes extraNonce extraNonce2
      = beforeScript ++ scriptStart host jobTemplate
        ++ Js.bufferFromHex (extraNonce ++ extraNonce2) ++ coinbaseEnd job := by
  obtain ⟨hbefore, hafter⟩ := bufferFromHex_coinbaseParts hbitcoin hjob
  rw [MiningJob.coinbaseBytes, hbefore, hafter]

/-- A clone of the job's coinbase is the coinbase again. -/
def ClonesCoinbase (host : Externals) (job : MiningJob) : Prop :=
  host.fromBuffer (host.toBuffer job.coinbaseTransaction) = some job.coinbaseTransaction

instance : Decidable (ClonesCoinbase host job) := inferInstanceAs (Decidable (_ = _))

/-- The coinbase of a found block. -/
theorem blockCoinbase_eq (hbitcoin : WritesBitcoin host) (hclone : ClonesCoinbase host job)
    (hjob : MiningJob.create host network jobId payoutInformation jobTemplate payoutWorker now
      = some job) (extraNonce extraNonce2 : List Char) :
    ∃ coinbase, job.blockCoinbase host extraNonce extraNonce2 = some coinbase ∧
      host.toLegacyBuffer coinbase
        = putLE 4 2 ++ putVarInt 1 ++ fit 32 (List.replicate 32 0) ++ putLE 4 0xffffffff
          ++ putVarInt (23 + (Js.bufferFromHex (extraNonce ++ extraNonce2)).length)
          ++ (scriptStart host jobTemplate ++ Js.bufferFromHex (extraNonce ++ extraNonce2))
          ++ coinbaseEnd job := by
  have hscript := hbitcoin.length_script jobTemplate.blockData.height
  obtain ⟨-, -, -, -, -, hcoinbase⟩ := MiningJob.fields_create host hjob
  have heq := jobCoinbase_eq hcoinbase
  have hins : job.coinbaseTransaction.ins.head? = some
      { hash := List.replicate 32 0
        index := 0xffffffff
        script := coinbaseScript host jobTemplate.blockData.height
        sequence := 0xffffffff
        witness := [List.replicate 32 0] } := by
    rw [heq]
    rfl
  have htail : job.coinbaseTransaction.ins.tail = [] := by
    rw [heq]
    rfl
  have htext : Js.bufferFromHex
      ((Js.toHex (coinbaseScript host jobTemplate.blockData.height)).take
          ((Js.toHex (coinbaseScript host jobTemplate.blockData.height)).length
            - totalExtranonceSizeBytes * 2)
        ++ extraNonce ++ extraNonce2)
      = scriptStart host jobTemplate ++ Js.bufferFromHex (extraNonce ++ extraNonce2) := by
    have hroom : 2 * 35 - totalExtranonceSizeBytes * 2 = 2 * 23 := rfl
    rw [Js.length_toHex, hscript, hroom, take_toHex_bytes (by omega), List.append_assoc,
      Js.bufferFromHex_toHex_append, scriptStart]
  unfold MiningJob.blockCoinbase
  rw [hclone]
  simp only [Option.bind_eq_bind, Option.bind_some, hins, htail, htext, Option.pure_def]
  refine ⟨_, rfl, ?_⟩
  rw [hbitcoin.legacy, serialize_single rfl, List.length_append, length_scriptStart hbitcoin, heq]
  rfl

/-- Only one length has the length byte of the job's script. -/
theorem putVarInt_eq_room {n : ℕ} (h : putVarInt (23 + n) = putVarInt 35) : n = 12 := by
  unfold putVarInt at h
  rw [if_pos (by norm_num : 35 < 0xfd)] at h
  split at h
  · rename_i hlt
    have hvalue := congrArg leValue h
    have hread := leValue_putLE 1 (23 + n)
    have hroom := leValue_putLE 1 35
    rw [hvalue, hroom] at hread
    omega
  · have hlength := congrArg List.length h
    split at hlength
    · simp at hlength
    · split at hlength <;> simp at hlength

/-- The share and the block hash one coinbase exactly when the extranonce fills its room. -/
theorem coinbase_eq_iff (hbitcoin : WritesBitcoin host) (hclone : ClonesCoinbase host job)
    (hjob : MiningJob.create host network jobId payoutInformation jobTemplate payoutWorker now
      = some job) (extraNonce extraNonce2 : List Char) :
    ∃ coinbase, job.blockCoinbase host extraNonce extraNonce2 = some coinbase ∧
      (host.toLegacyBuffer coinbase = job.coinbaseBytes extraNonce extraNonce2
        ↔ (Js.bufferFromHex (extraNonce ++ extraNonce2)).length = 12) := by
  obtain ⟨coinbase, hcoinbase, hbytes⟩ :=
    blockCoinbase_eq hbitcoin hclone hjob extraNonce extraNonce2
  refine ⟨coinbase, hcoinbase, ?_⟩
  rw [hbytes, coinbaseBytes_eq hbitcoin hjob, beforeScript]
  simp only [List.append_assoc, List.append_cancel_left_eq]
  constructor
  · intro h
    exact putVarInt_eq_room (List.append_cancel_right h)
  · intro h
    rw [h]

/-! ### The two headers -/

/-- The header by which a share is judged. -/
def judgedHeader (host : Externals) (job : MiningJob) (template : JobTemplate)
    (extraNonce : List Char) (submission : MiningSubmitMessage) : Option Bytes :=
  job.buildHeaderBuffer host template (Js.parseInt16 submission.versionMask)
    (Js.parseInt16 submission.nonce) extraNonce submission.extraNonce2.toList
    (Js.parseInt16 submission.ntime)

/-- The header of the block that is submitted for a share. -/
def submittedHeader (host : Externals) (job : MiningJob) (template : JobTemplate)
    (extraNonce : List Char) (submission : MiningSubmitMessage) : Option Bytes :=
  (job.copyAndUpdateBlock host template (Js.parseInt16 submission.versionMask)
    (Js.parseInt16 submission.nonce) extraNonce submission.extraNonce2.toList
    (Js.parseInt16 submission.ntime)).map fun block => block.2.take 80

/-- What is hashed for the share does not collide with what is hashed for the block. -/
def CoinbasesApart (host : Externals) (job : MiningJob) (extraNonce extraNonce2 : List Char) :
    Prop :=
  let hashed (coinbase : Bytes) :=
    coinbase :: merklePreimages host (host.hash256 coinbase) job.merkleBranches
  ∀ coinbase ∈ job.blockCoinbase host extraNonce extraNonce2,
    HashesApart host (hashed (host.toLegacyBuffer coinbase))
      (hashed (job.coinbaseBytes extraNonce extraNonce2))

instance (extraNonce extraNonce2 : List Char) :
    Decidable (CoinbasesApart host job extraNonce extraNonce2) := by
  unfold CoinbasesApart
  infer_instance

variable {template : JobTemplate} {extraNonce : List Char} {submission : MiningSubmitMessage}
  {header : Bytes}

/-- The header that is written around a merkle root. -/
theorem judgedHeader_eq (h : judgedHeader host job template extraNonce submission = some header) :
    blockHeaderBytes (rollVersion template.block.version (Js.parseInt16 submission.versionMask))
      template.block.prevHash
      (merkleRootOfPath host
        (host.hash256 (job.coinbaseBytes extraNonce submission.extraNonce2.toList))
        job.merkleBranches)
      (Js.parseInt16 submission.ntime) (some template.block.bits)
      (Js.parseInt16 submission.nonce) = some header := h

/-- The fields of a header, once it is written, are written around every merkle root. -/
theorem blockHeaderBytes_of_root {version : ℤ} {prevHash : Bytes} {merkleRoot merkleRoot' : Digest}
    {timestamp bits nonce : Option ℤ} {header : Bytes}
    (h : blockHeaderBytes version prevHash merkleRoot timestamp bits nonce = some header) :
    ∃ header', blockHeaderBytes version prevHash merkleRoot' timestamp bits nonce = some header' ∧
      header'.length = 80 ∧ (header' = header ↔ merkleRoot' = merkleRoot) := by
  have hheader := blockHeaderBytes_eq_some h
  simp only [blockHeaderBytes, Option.bind_eq_bind, Option.bind_eq_some_iff, Option.pure_def,
    Option.some.injEq] at h
  obtain ⟨versionBytes, hversion, timestampBytes, htimestamp, bitsBytes, hbits, nonceBytes, hnonce,
    -⟩ := h
  have hwritten : blockHeaderBytes version prevHash merkleRoot' timestamp bits nonce
      = some (versionBytes ++ fit 32 prevHash ++ merkleRoot'.bytes ++ timestampBytes ++ bitsBytes
        ++ nonceBytes) := by
    simp only [blockHeaderBytes, hversion, htimestamp, hbits, hnonce, Option.bind_eq_bind,
      Option.bind_some, Option.pure_def]
  refine ⟨_, hwritten, ?_, ?_⟩
  · rw [Js.writeInt32LE_eq_some hversion, Js.writeUInt32LE_eq_some htimestamp,
      Js.writeUInt32LE_eq_some hbits, Js.writeUInt32LE_eq_some hnonce]
    simp [merkleRoot'.length_eq]
  · rw [← blockHeaderBytes_eq_some hwritten, ← hheader]
    constructor
    · intro heq
      have hfields := HeaderFields.bytes_injective heq
      exact congrArg HeaderFields.merkleRoot hfields
    · rintro rfl
      rfl

/-- An admitted extranonce has 16 characters. -/
theorem length_extraNonce2 {params : List JsonValue}
    (h : MiningSubmitMessage.ofParams params = some submission) :
    submission.extraNonce2.toList.length = 16 := by
  rw [String.length_toList]
  unfold MiningSubmitMessage.ofParams at h
  split at h
  · split at h
    · cases h
    · rename_i hlength
      have hlength := not_not.mp hlength
      split at h <;> cases h <;> exact hlength
  · cases h

/-- The extranonce fills its room when it has digits only. -/
theorem length_extraNonce_iff {extraNonceBytes : Bytes} (hextraNonce : extraNonceBytes.length = 4)
    {extraNonce2 : List Char} (hlength : extraNonce2.length = 16) :
    (Js.bufferFromHex (Js.toHex extraNonceBytes ++ extraNonce2)).length = 12
      ↔ ∀ c ∈ extraNonce2, (Js.hexDigit? c).isSome = true := by
  obtain ⟨-, hiff⟩ := Js.length_bufferFromHex extraNonce2 (by omega)
  rw [← hiff, Js.bufferFromHex_toHex_append, List.length_append]
  omega

/-- The block's header is written around the merkle root of its coinbase. -/
theorem submittedHeader_eq_iff
    (hheader : judgedHeader host job template extraNonce submission = some header)
    {coinbase : Transaction}
    (hcoinbase : job.blockCoinbase host extraNonce submission.extraNonce2.toList = some coinbase) :
    submittedHeader host job template extraNonce submission = some header
      ↔ job.blockMerkleRoot host coinbase
        = merkleRootOfPath host
            (host.hash256 (job.coinbaseBytes extraNonce submission.extraNonce2.toList))
            job.merkleBranches := by
  obtain ⟨header', hwritten, hlength, hiff⟩ :=
    @blockHeaderBytes_of_root _ _ _ (job.blockMerkleRoot host coinbase) _ _ _ _
      (judgedHeader_eq hheader)
  have hsubmitted : submittedHeader host job template extraNonce submission = some header' := by
    unfold submittedHeader MiningJob.copyAndUpdateBlock
    rw [hcoinbase]
    simp only [Option.bind_eq_bind, Option.bind_some, hwritten, Option.pure_def, Option.map_some,
      blockBytes, List.append_assoc]
    rw [List.take_left' hlength]
  rw [hsubmitted, Option.some.injEq, hiff]

end

namespace Sv1Sample

/-- A template with one transaction beside the coinbase. -/
def headerTemplate : JobTemplate :=
  { template "B" with merkleBranch := [List.replicate 32 5] }

/-- A job for `A`. -/
def headerJob : MiningJob :=
  (MiningJob.create mixingHost .mainnet "1"
    [{ address := "A", percent := some 100, amountSats := none }] headerTemplate none
    1700000000000).get (by decide +kernel)

/-- A submission with the given extranonce. -/
def headerSubmission (extraNonce2 : String) : MiningSubmitMessage where
  jobId := "1"
  extraNonce2 := extraNonce2
  ntime := "6553f101"
  nonce := "00000005"
  versionMask := "0"

/-- The extranonce of the connection. -/
def connectionBytes : Bytes := [0x0a, 0x0b, 0x0c, 0x0d]

end Sv1Sample

end PublicPool.Proofs
