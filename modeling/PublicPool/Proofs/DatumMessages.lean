import PublicPool.Datum.Messages
import PublicPool.Proofs.Sv2.MessageRoundTrip
import Mathlib.Data.Nat.Bitwise

/-!
# `PublicPool.Proofs.DatumMessages`: DATUM messages survive the wire

`powSubmit_survives`: a submission with any sections in any order is read as it was meant. The
last job section counts, and of the coinbases with one id the last one.

`jobValidationResponse_survives_iff`: so are the answers about the transactions of a job, except
for short ids without a crosscheck that are padded with 31 bytes or more. There is no mark for a
crosscheck, and the decoder takes one whenever 32 bytes are left: the terminator and the padding
are then taken for it.

The proofs follow the decoders field by field, with the wire types of `MessageRoundTrip`. What is
new is the loop over the sections, which stops at the terminator or at the end
(`readPowSections_append`).
-/

set_option autoImplicit false

namespace PublicPool.Datum

open Lib Lib.Wire
open Sv2 (BufferReader BufferWriter IsU8 utf8Bytes utf8String)
open Sv2.BufferReader Sv2.BufferWriter Sv2.WireField

/-! ### Texts that end with a null byte -/

/-- Only the null character has a null byte. -/
theorem zero_notMem_utf8EncodeChar {c : Char} (hc : c ≠ '\x00') :
    (0 : UInt8) ∉ String.utf8EncodeChar c := by
  have hval : c.val.toNat ≠ 0 := fun h => hc (Char.ext (UInt32.toNat_inj.mp h))
  have hvalid : c.val.toNat < 0x110000 := by
    have hc := c.valid
    simp only [UInt32.isValidChar, Nat.isValidChar] at hc
    omega
  have hne {b : ℕ} (hlow : 0 < b) (hhigh : b < 256) : (0 : UInt8) ≠ UInt8.ofNat b := by
    intro h
    have hnat := congrArg UInt8.toNat h
    rw [UInt8.toNat_ofNat', Nat.mod_eq_of_lt hhigh] at hnat
    exact hlow.ne hnat
  rw [String.utf8EncodeChar]
  generalize c.val.toNat = n at hval hvalid
  split
  · rw [List.mem_singleton]
    exact hne (by omega) (by omega)
  split
  · simp only [List.mem_cons, List.not_mem_nil, or_false, not_or]
    exact ⟨hne (by omega) (by omega), hne (by omega) (by omega)⟩
  split
  · simp only [List.mem_cons, List.not_mem_nil, or_false, not_or]
    exact ⟨hne (by omega) (by omega), hne (by omega) (by omega), hne (by omega) (by omega)⟩
  · simp only [List.mem_cons, List.not_mem_nil, or_false, not_or]
    exact ⟨hne (by omega) (by omega), hne (by omega) (by omega), hne (by omega) (by omega),
      hne (by omega) (by omega)⟩

theorem run_readNullTerminatedString (bytes : Bytes) :
    readNullTerminatedString.run bytes
      = some (utf8String (bytes.takeWhile (· ≠ 0)), (bytes.dropWhile (· ≠ 0)).drop 1) := rfl

theorem nullTerminatedString {text : String} (h : '\x00' ∉ text.toList) :
    RoundTrips (writeNullTerminatedString text) readNullTerminatedString text := by
  refine ⟨utf8Bytes text ++ [0], fun written => ?_, fun rest => ?_⟩
  · show some ((), (written ++ utf8Bytes text) ++ putLE 1 (0 : ℕ)) = _
    rw [List.append_assoc]
    rfl
  · have hne : ∀ b ∈ utf8Bytes text, decide (b ≠ 0) = true := by
      intro b hb
      obtain ⟨c, hc, hbc⟩ := List.mem_flatMap.mp hb
      have hc0 : c ≠ '\x00' := fun h0 => h (h0 ▸ hc)
      exact decide_eq_true fun hb0 => zero_notMem_utf8EncodeChar hc0 (hb0 ▸ hbc)
    have htake : (utf8Bytes text ++ 0 :: rest).takeWhile (· ≠ 0) = utf8Bytes text := by
      rw [List.takeWhile_append_of_pos hne]
      exact List.append_nil _
    have hdrop : (utf8Bytes text ++ 0 :: rest).dropWhile (· ≠ 0) = 0 :: rest := by
      rw [List.dropWhile_append_of_pos hne]
      rfl
    have hback : utf8String (utf8Bytes text) = text := by
      rw [utf8String, utf8Bytes, Utf8.decode_encode, String.ofList_toList]
    rw [run_readNullTerminatedString, List.append_assoc, List.singleton_append, htake, hdrop, hback,
      List.drop_one, List.tail_cons]

/-! ### Sections -/

theorem powJob_roundTrips {job : DatumPowJob} (h : job.InRange) :
    RoundTrips (writePowJob job) readPowJob job :=
  .bind (bytes h.prevBlockHash) <| .bind (u16 h.targetByteIndex) <| .bind (bytes h.nBits) <|
    .bind (u8 h.coinbaserId) <| .bind (u32 h.height) <| .bind (u64 h.coinbaseValue) <|
    .bind (u32 h.transactionCount) <| .bind (u32 h.totalWeight) <| .bind (u32 h.totalSize) <|
    .bind (u32 h.totalSigops) <| .bind (u8 (Nat.lt_succ_of_le h.merkleBranchCount)) <|
    .last (.forM_times fun branch hbranch => bytes (h.merkleBranches branch hbranch)) _

theorem powCoinbase_roundTrips {coinbaseType : ℕ} {coinbase : CoinbasePair}
    (htype : IsU8 coinbaseType) (hcoinb1 : coinbase.coinb1.length ≤ 65535)
    (hcoinb2 : coinbase.coinb2.length ≤ 65535) :
    RoundTrips (writePowCoinbase coinbaseType coinbase) readPowCoinbase (coinbaseType, coinbase) :=
  .bind (u8 htype) <| .bind (u16 (Nat.lt_succ_of_le hcoinb1)) <|
    .bind (u16 (Nat.lt_succ_of_le hcoinb2)) <| .bind (bytes rfl) <| .last (bytes rfl) _

/-- What the loop makes of a section. -/
def DatumPowSections.add (sections : DatumPowSections) : DatumPowSection → DatumPowSections
  | .job job => { sections with job := some job }
  | .coinbase coinbaseType coinbase => sections.setCoinbase coinbaseType coinbase

theorem run_writeU8 (v : ℕ) (written : Bytes) :
    (writeU8 v).run written = some ((), written ++ putLE 1 (v : ℤ)) := rfl

/-- A byte and what is left. -/
theorem run_readU8_putLE {v : ℕ} (hv : IsU8 v) (rest : Bytes) :
    (readU8).run (putLE 1 v ++ rest) = some (v, rest) :=
  (u8 hv).run_written (run_writeU8 v []) rest

/-- One round of the loop. -/
theorem run_readPowSections_succ {kind : ℕ} (hkind : IsU8 kind) (rounds : ℕ)
    (sections : DatumPowSections) (rest : Bytes) :
    (readPowSections (rounds + 1) sections).run (putLE 1 kind ++ rest) =
      if kind = datumTerminator then some (sections, rest)
      else if kind = 0x01 then
        (readPowJob >>= fun job => readPowSections rounds { sections with job := some job }).run
          rest
      else if kind = 0x02 then
        (readPowCoinbase >>= fun pair =>
          readPowSections rounds (sections.setCoinbase pair.1 pair.2)).run rest
      else none := by
  have hlength : (putLE 1 (kind : ℤ) ++ rest).length ≠ 0 := by
    rw [List.length_append, length_putLE]
    omega
  have hread := run_readU8_putLE hkind rest
  have hremaining : remaining.run (putLE 1 (kind : ℤ) ++ rest) =
      some ((putLE 1 (kind : ℤ) ++ rest).length, putLE 1 kind ++ rest) := rfl
  rw [readPowSections, run_bind hremaining, if_neg hlength, run_bind hread]
  by_cases hterminator : kind = datumTerminator
  · rw [if_pos hterminator, if_pos hterminator]
    rfl
  rw [if_neg hterminator, if_neg hterminator]
  by_cases hjob : kind = 0x01
  · rw [if_pos hjob, if_pos hjob]
  rw [if_neg hjob, if_neg hjob]
  by_cases hcoinbase : kind = 0x02
  · rw [if_pos hcoinbase, if_pos hcoinbase]
  · rw [if_neg hcoinbase, if_neg hcoinbase]
    rfl

/-- A section is taken in one round. -/
theorem readPowSections_section {part : DatumPowSection} (h : part.InRange) :
    ∃ symbols, (∀ written, (writePowSection part).run written = some ((), written ++ symbols)) ∧
      1 ≤ symbols.length ∧ ∀ rounds sections rest,
        (readPowSections (rounds + 1) sections).run (symbols ++ rest) =
          (readPowSections rounds (sections.add part)).run rest := by
  have hlength (kind : ℕ) (symbols : Bytes) : 1 ≤ (putLE 1 (kind : ℤ) ++ symbols).length := by
    rw [List.length_append, length_putLE]
    omega
  cases part with
  | job job =>
    obtain ⟨symbols, hwrite, hread⟩ := powJob_roundTrips h
    refine ⟨putLE 1 (0x01 : ℕ) ++ symbols, fun written => ?_, hlength .., ?_⟩
    · rw [writePowSection, run_write_bind (run_writeU8 0x01 written), hwrite, List.append_assoc]
    · intro rounds sections rest
      rw [List.append_assoc, run_readPowSections_succ (show 0x01 < 2 ^ 8 by norm_num),
        if_neg (by decide), if_pos rfl,
        run_bind (hread rest)]
      rfl
  | coinbase coinbaseType coinbase =>
    obtain ⟨htype, hcoinb1, hcoinb2⟩ := h
    obtain ⟨symbols, hwrite, hread⟩ := powCoinbase_roundTrips htype hcoinb1 hcoinb2
    refine ⟨putLE 1 (0x02 : ℕ) ++ symbols, fun written => ?_, hlength .., ?_⟩
    · rw [writePowSection, run_write_bind (run_writeU8 0x02 written), hwrite, List.append_assoc]
    · intro rounds sections rest
      rw [List.append_assoc, run_readPowSections_succ (show 0x02 < 2 ^ 8 by norm_num),
        if_neg (by decide), if_neg (by decide), if_pos rfl, run_bind (hread rest)]
      rfl

/-- The loop takes the sections one after the other, up to the terminator. -/
theorem readPowSections_append {parts : List DatumPowSection} (h : ∀ part ∈ parts, part.InRange)
    (padding : Bytes) :
    ∃ symbols, (∀ written, (parts.forM writePowSection >>= fun _ =>
        writeTerminatorAndPadding padding).run written = some ((), written ++ symbols)) ∧
      ∀ rounds sections, symbols.length ≤ rounds →
        (readPowSections rounds sections).run symbols =
          some (parts.foldl DatumPowSections.add sections, padding) := by
  induction parts with
  | nil =>
    refine ⟨putLE 1 datumTerminator ++ padding, fun written => ?_, fun rounds sections hrounds => ?_⟩
    · show some ((), (written ++ putLE 1 datumTerminator) ++ padding) = _
      rw [List.append_assoc]
    · rw [List.length_append, length_putLE] at hrounds
      obtain ⟨rounds, rfl⟩ : ∃ n, rounds = n + 1 := ⟨rounds - 1, by omega⟩
      rw [run_readPowSections_succ (show datumTerminator < 2 ^ 8 by norm_num [datumTerminator]),
        if_pos rfl]
      rfl
  | cons part parts ih =>
    obtain ⟨hpart, hparts⟩ := List.forall_mem_cons.mp h
    obtain ⟨first, hfirst, hpositive, hround⟩ := readPowSections_section hpart
    obtain ⟨tail, htail, hrounds⟩ := ih hparts
    refine ⟨first ++ tail, fun written => ?_, fun rounds sections hle => ?_⟩
    · show StateT.run ((writePowSection part >>= fun _ => parts.forM writePowSection) >>= _)
        written = _
      rw [bind_assoc, run_write_bind (hfirst written), htail, List.append_assoc]
    · rw [List.length_append] at hle
      obtain ⟨rounds, rfl⟩ : ∃ n, rounds = n + 1 := ⟨rounds - 1, by omega⟩
      rw [hround, hrounds _ _ (by omega)]
      rfl

/-! ### Which sections count -/

def DatumPowSection.job? : DatumPowSection → Option DatumPowJob
  | .job fields => some fields
  | .coinbase .. => none

/-- The coinbase of a section that is about this id. -/
def DatumPowSection.coinbase? (coinbaseType : ℕ) : DatumPowSection → Option CoinbasePair
  | .job _ => none
  | .coinbase type pair => if type = coinbaseType then some pair else none

/-- The last of the values that a list gives, after one that was there before. -/
theorem getLast?_filterMap_cons {α β : Type} (f : α → Option β) (x : α) (xs : List α)
    (before : Option β) :
    ((x :: xs).filterMap f).getLast?.or before =
      (xs.filterMap f).getLast?.or ((f x).or before) := by
  cases hx : f x with
  | none => rw [List.filterMap_cons_none hx, Option.none_or]
  | some y =>
    rw [List.filterMap_cons_some hx, List.getLast?_cons]
    cases (xs.filterMap f).getLast? <;> rfl

section
variable (parts : List DatumPowSection) (sections : DatumPowSections)

theorem job_foldl_add :
    (parts.foldl DatumPowSections.add sections).job =
      (parts.filterMap DatumPowSection.job?).getLast?.or sections.job := by
  induction parts generalizing sections with
  | nil => rfl
  | cons part parts ih =>
    have hpart : (sections.add part).job = part.job?.or sections.job := by
      cases part with
      | job job => rfl
      | coinbase coinbaseType coinbase =>
        show (sections.setCoinbase coinbaseType coinbase).job = sections.job
        rw [DatumPowSections.setCoinbase]
        split <;> rfl
    rw [List.foldl_cons, ih, hpart, getLast?_filterMap_cons]

theorem subsidyOnlyCoinbase_foldl_add :
    (parts.foldl DatumPowSections.add sections).subsidyOnlyCoinbase =
      (parts.filterMap (DatumPowSection.coinbase? subsidyOnlyCoinbaseType)).getLast?.or
        sections.subsidyOnlyCoinbase := by
  induction parts generalizing sections with
  | nil => rfl
  | cons part parts ih =>
    have hpart : (sections.add part).subsidyOnlyCoinbase =
        (part.coinbase? subsidyOnlyCoinbaseType).or sections.subsidyOnlyCoinbase := by
      cases part with
      | job job => rfl
      | coinbase coinbaseType coinbase =>
        show (sections.setCoinbase coinbaseType coinbase).subsidyOnlyCoinbase = _
        rw [DatumPowSections.setCoinbase, DatumPowSection.coinbase?]
        split <;> rfl
    rw [List.foldl_cons, ih, hpart, getLast?_filterMap_cons]

theorem coinbasePairs_foldl_add {id : ℕ} (hid : id ≠ subsidyOnlyCoinbaseType)
    (parts : List DatumPowSection) (sections : DatumPowSections) :
    (parts.foldl DatumPowSections.add sections).coinbasePairs.get? id =
      (parts.filterMap (DatumPowSection.coinbase? id)).getLast?.or
        (sections.coinbasePairs.get? id) := by
  induction parts generalizing sections with
  | nil => rfl
  | cons part parts ih =>
    have hpart : (sections.add part).coinbasePairs.get? id =
        (part.coinbase? id).or (sections.coinbasePairs.get? id) := by
      cases part with
      | job job => rfl
      | coinbase coinbaseType coinbase =>
        show (sections.setCoinbase coinbaseType coinbase).coinbasePairs.get? id = _
        rw [DatumPowSections.setCoinbase, DatumPowSection.coinbase?]
        by_cases htype : coinbaseType = subsidyOnlyCoinbaseType
        · have hne : coinbaseType ≠ id := fun h => hid (h ▸ htype)
          rw [if_pos htype, if_neg hne]
          rfl
        · rw [if_neg htype]
          show (sections.coinbasePairs.set coinbaseType coinbase).get? id = _
          rw [OrdMap.get?_set]
          by_cases hsame : coinbaseType = id
          · rw [if_pos hsame, if_pos hsame.symm]
            rfl
          · rw [if_neg hsame, if_neg (Ne.symm hsame)]
            rfl
    rw [List.foldl_cons, ih, hpart, getLast?_filterMap_cons]

/-- No coinbase is stored under the id of the one without fees. -/
theorem subsidyOnly_notMem_foldl_add {sections : DatumPowSections}
    (h : sections.coinbasePairs.get? subsidyOnlyCoinbaseType = none) :
    (parts.foldl DatumPowSections.add sections).coinbasePairs.get? subsidyOnlyCoinbaseType
      = none := by
  induction parts generalizing sections with
  | nil => exact h
  | cons part parts ih =>
    refine ih ?_
    cases part with
    | job job => exact h
    | coinbase coinbaseType coinbase =>
      show (sections.setCoinbase coinbaseType coinbase).coinbasePairs.get? _ = none
      rw [DatumPowSections.setCoinbase]
      split
      · exact h
      · rename_i htype
        show (sections.coinbasePairs.set coinbaseType coinbase).get? _ = none
        rw [OrdMap.get?_set, if_neg (Ne.symm htype)]
        exact h

end

/-! ### Submissions -/

namespace DatumPowSubmission

variable (submission : DatumPowSubmission)

/-- The last job section. -/
def lastJob : Option DatumPowJob :=
  (submission.sections.filterMap DatumPowSection.job?).getLast?

/-- The last section about a coinbase with this id. -/
def lastCoinbase (coinbaseType : ℕ) : Option CoinbasePair :=
  (submission.sections.filterMap (DatumPowSection.coinbase? coinbaseType)).getLast?

/-- A message has exactly the fields of a submission. -/
structure IsReadAs (message : DatumPowMessage) : Prop where
  jobId : message.jobId = submission.jobId
  coinbaseId : message.coinbaseId = submission.coinbaseId
  isBlock : message.isBlock = submission.isBlock
  subsidyOnly : message.subsidyOnly = submission.subsidyOnly
  quickDiff : message.quickDiff = submission.quickDiff
  targetByte : message.targetByte = submission.targetByte
  ntime : message.ntime = submission.ntime
  nonce : message.nonce = submission.nonce
  version : message.version = submission.version
  extranonce : message.extranonce = submission.extranonce
  username : message.username = submission.username
  reserved : message.reserved = submission.reserved
  prevBlockHash : message.prevBlockHash = submission.lastJob.map (·.prevBlockHash)
  targetByteIndex : message.targetByteIndex = submission.lastJob.map (·.targetByteIndex)
  nBits : message.nBits = submission.lastJob.map (·.nBits)
  coinbaserId : message.coinbaserId = submission.lastJob.map (·.coinbaserId)
  height : message.height = submission.lastJob.map (·.height)
  coinbaseValue : message.coinbaseValue = submission.lastJob.map (·.coinbaseValue)
  transactionCount : message.transactionCount = submission.lastJob.map (·.transactionCount)
  totalWeight : message.totalWeight = submission.lastJob.map (·.totalWeight)
  totalSize : message.totalSize = submission.lastJob.map (·.totalSize)
  totalSigops : message.totalSigops = submission.lastJob.map (·.totalSigops)
  merkleBranches : message.merkleBranches = submission.lastJob.map (·.merkleBranches)
  coinbasePairs : ∀ id coinbase, (id, coinbase) ∈ message.coinbasePairs ↔
    id ≠ subsidyOnlyCoinbaseType ∧ submission.lastCoinbase id = some coinbase
  coinbaseIds : (message.coinbasePairs.map Prod.fst).Nodup
  subsidyOnlyCoinbase :
    message.subsidyOnlyCoinbase = submission.lastCoinbase subsidyOnlyCoinbaseType

theorem flags_lt {submission : DatumPowSubmission} (h : submission.InRange) :
    IsU8 submission.flags := by
  have hblock := submission.isBlock.toNat_lt
  have hsubsidy := submission.subsidyOnly.toNat_lt
  have hquick := submission.quickDiff.toNat_lt
  have hunused := h.unusedFlags
  show submission.flags < 2 ^ 8
  rw [flags]
  omega

/-- The three flags with a meaning are read back. -/
theorem flags_and :
    decide (submission.flags &&& 0x01 ≠ 0) = submission.isBlock ∧
    decide (submission.flags &&& 0x02 ≠ 0) = submission.subsidyOnly ∧
    decide (submission.flags &&& 0x04 ≠ 0) = submission.quickDiff := by
  have hblock := submission.isBlock.toNat_lt
  have hsubsidy := submission.subsidyOnly.toNat_lt
  have hquick := submission.quickDiff.toNat_lt
  have hbit {n i : ℕ} {b : Bool} (hdigit : n / 2 ^ i % 2 = b.toNat) :
      decide (n &&& 2 ^ i ≠ 0) = b := by
    rw [Nat.and_two_pow, Nat.testBit_eq_decide_div_mod_eq, hdigit]
    cases b <;> simp
  refine ⟨hbit (i := 0) ?_, hbit (i := 1) ?_, hbit (i := 2) ?_⟩ <;>
  · rw [flags]
    omega

/-- The fields before the sections. -/
def fixed : DatumPowMessage where
  jobId := submission.jobId
  coinbaseId := submission.coinbaseId
  isBlock := submission.isBlock
  subsidyOnly := submission.subsidyOnly
  quickDiff := submission.quickDiff
  targetByte := submission.targetByte
  ntime := submission.ntime
  nonce := submission.nonce
  version := submission.version
  extranonce := submission.extranonce
  username := submission.username
  reserved := submission.reserved
  prevBlockHash := none
  targetByteIndex := none
  nBits := none
  coinbaserId := none
  height := none
  coinbaseValue := none
  transactionCount := none
  totalWeight := none
  totalSize := none
  totalSigops := none
  merkleBranches := none
  coinbasePairs := []
  subsidyOnlyCoinbase := none

/-- Four bytes are left for the reserved ones, so four are read. -/
theorem reserved_roundTrips {reserved : Bytes} (h : reserved.length = 4) :
    RoundTrips (writeBytes reserved) readReserved reserved := by
  have hwrite (written : Bytes) :
      (writeBytes reserved).run written = some ((), written ++ reserved) := rfl
  refine ⟨reserved, hwrite, fun rest => ?_⟩
  have hremaining : remaining.run (reserved ++ rest) =
      some ((reserved ++ rest).length, reserved ++ rest) := rfl
  have hmin : min 4 (reserved ++ rest).length = 4 := by
    rw [List.length_append, h]
    omega
  rw [readReserved, run_bind hremaining, hmin]
  exact (bytes h).run_written (hwrite []) rest

theorem fixed_roundTrips {submission : DatumPowSubmission} (h : submission.InRange) :
    RoundTrips (writePowHeader submission) readPowFixed submission.fixed := by
  obtain ⟨hblock, hsubsidy, hquick⟩ := submission.flags_and
  have hsize : IsU8 submission.extranonce.length := by
    rw [h.extranonce]
    exact show 12 < 2 ^ 8 by norm_num
  have hfixed : submission.fixed =
      { submission.fixed with
        isBlock := submission.flags &&& 0x01 ≠ 0
        subsidyOnly := submission.flags &&& 0x02 ≠ 0
        quickDiff := submission.flags &&& 0x04 ≠ 0 } := by
    rw [hblock, hsubsidy, hquick]
    rfl
  rw [hfixed]
  refine .bind (u8 h.jobId) <| .bind (u8 h.coinbaseId) <| .bind (u8 (flags_lt h)) <|
    .bind (u8 h.targetByte) <| .bind (u32 h.ntime) <| .bind (u32 h.nonce) <|
    .bind (u32 h.version) <| .bind (u8 hsize) ?_
  rw [if_neg (not_not.mpr h.extranonce)]
  exact .bind (bytes rfl) <| .bind (nullTerminatedString h.username) <|
    .last (reserved_roundTrips h.reserved) _

end DatumPowSubmission

/-- A submission is read as it was meant, whatever its sections and its padding. -/
theorem powSubmit_survives {submission : DatumPowSubmission} (h : submission.InRange)
    (padding : Bytes) :
    ∃ bytes message, serializeDatumPowSubmission submission padding = some bytes ∧
      deserializeDatumPowSubmit bytes = some message ∧ submission.IsReadAs message := by
  obtain ⟨symbols, hwrite, hread⟩ := readPowSections_append h.sections padding
  let sections := submission.sections.foldl DatumPowSections.add .none
  -- The sections are read to the terminator, and the rounds are enough for that.
  have hsections : Yields
      (submission.sections.forM writePowSection >>= fun _ => writeTerminatorAndPadding padding)
      (remaining >>= fun n => readPowSections n .none >>= fun sections =>
        pure (sections.fill submission.fixed))
      (some (sections.fill submission.fixed)) := by
    refine ⟨symbols, hwrite, ?_⟩
    have hremaining : remaining.run symbols = some (symbols.length, symbols) := rfl
    rw [run_bind hremaining, run_bind (hread _ _ le_rfl)]
    rfl
  have hwhole : Yields (writePowHeader submission >>= fun _ =>
      submission.sections.forM writePowSection >>= fun _ => writeTerminatorAndPadding padding)
      readPowSubmit (some (sections.fill submission.fixed)) :=
    (DatumPowSubmission.fixed_roundTrips h).yields hsections
  obtain ⟨bytes, hbytes, hdecoded⟩ := hwhole.output_eq
  refine ⟨bytes, _, hbytes, hdecoded, ?_⟩
  have hjob : sections.job = submission.lastJob :=
    (job_foldl_add submission.sections .none).trans (Option.or_none ..)
  have hsubsidy : sections.subsidyOnlyCoinbase =
      submission.lastCoinbase subsidyOnlyCoinbaseType :=
    (subsidyOnlyCoinbase_foldl_add submission.sections .none).trans (Option.or_none ..)
  refine {
    jobId := rfl, coinbaseId := rfl, isBlock := rfl, subsidyOnly := rfl, quickDiff := rfl
    targetByte := rfl, ntime := rfl, nonce := rfl, version := rfl, extranonce := rfl
    username := rfl, reserved := rfl
    prevBlockHash := congrArg (Option.map _) hjob
    targetByteIndex := congrArg (Option.map _) hjob
    nBits := congrArg (Option.map _) hjob
    coinbaserId := congrArg (Option.map _) hjob
    height := congrArg (Option.map _) hjob
    coinbaseValue := congrArg (Option.map _) hjob
    transactionCount := congrArg (Option.map _) hjob
    totalWeight := congrArg (Option.map _) hjob
    totalSize := congrArg (Option.map _) hjob
    totalSigops := congrArg (Option.map _) hjob
    merkleBranches := congrArg (Option.map _) hjob
    coinbasePairs := fun id coinbase => ?_
    coinbaseIds := sections.coinbasePairs.nodup
    subsidyOnlyCoinbase := hsubsidy }
  show (id, coinbase) ∈ sections.coinbasePairs.entries ↔ _
  rw [← OrdMap.get?_eq_some_iff]
  by_cases hid : id = subsidyOnlyCoinbaseType
  · have hnone : sections.coinbasePairs.get? subsidyOnlyCoinbaseType = none :=
      subsidyOnly_notMem_foldl_add submission.sections rfl
    rw [hid, hnone]
    exact iff_of_false (fun h => Option.some_ne_none _ h.symm) fun h => h.1 rfl
  · have hget : sections.coinbasePairs.get? id = submission.lastCoinbase id :=
      (coinbasePairs_foldl_add hid submission.sections .none).trans (Option.or_none ..)
    rw [hget]
    exact ⟨fun h => ⟨hid, h⟩, fun h => h.2⟩

/-! ### Answers about the transactions of a job -/

theorem run_consumeDatumTerminatorAndPadding (padding : Bytes) :
    consumeDatumTerminatorAndPadding.run (putLE 1 datumTerminator ++ padding) =
      some ((), padding) := by
  have hremaining : remaining.run (putLE 1 (datumTerminator : ℕ) ++ padding) =
      some ((putLE 1 (datumTerminator : ℕ) ++ padding).length,
        putLE 1 (datumTerminator : ℕ) ++ padding) := rfl
  have hlength : (putLE 1 (datumTerminator : ℕ) ++ padding).length ≠ 0 := by
    rw [List.length_append, length_putLE]
    omega
  have hterminator : IsU8 datumTerminator := show 0xfe < 2 ^ 8 by norm_num
  rw [consumeDatumTerminatorAndPadding, run_bind hremaining, if_neg hlength,
    run_bind (run_readU8_putLE hterminator padding)]
  rfl

/-- The end of a message that has been read. -/
theorem terminator_yields {α : Type} (message : α) (padding : Bytes) :
    Yields (writeTerminatorAndPadding padding)
      (consumeDatumTerminatorAndPadding >>= fun _ => pure message) (some message) := by
  refine ⟨putLE 1 datumTerminator ++ padding, fun written => ?_, ?_⟩
  · show some ((), (written ++ putLE 1 datumTerminator) ++ padding) = _
    rw [List.append_assoc]
  · rw [run_bind (run_consumeDatumTerminatorAndPadding padding)]
    rfl

theorem datumTransaction_roundTrips {transaction : Bytes} (h : transaction.length < 2 ^ 24) :
    RoundTrips (writeDatumTransaction transaction) readDatumTransaction transaction :=
  .bind (u24 h) (bytes rfl)

/-- A list of transactions is read up to the terminator. -/
theorem transactionList_yields {kind : ℕ → ℕ → ℕ → List Bytes → DatumJobValidationMessage}
    (jobId : ℕ) {transactions : List Bytes} (hlength : transactions.length ≤ 65535)
    (htransactions : ∀ transaction ∈ transactions, transaction.length < 2 ^ 24)
    (padding : Bytes) :
    Yields (writeTransactionList transactions >>= fun _ => writeTerminatorAndPadding padding)
      (deserializeDatumTransactionListResponse kind jobId validationSuccess)
      (some (kind jobId validationSuccess transactions.length transactions)) := by
  rw [writeTransactionList, bind_assoc, deserializeDatumTransactionListResponse,
    if_neg (not_not.mpr rfl)]
  exact (u16 (Nat.lt_succ_of_le hlength)).yields <|
    (RoundTrips.forM_times fun transaction htransaction =>
      datumTransaction_roundTrips (htransactions transaction htransaction)).yields <|
    terminator_yields _ padding

/-- A crosscheck that is there is taken. One that is not there is made up from the terminator and
the padding when they are 32 bytes or more. -/
theorem run_readCrosscheck {crosscheck : Option Bytes} (h : ∀ hash ∈ crosscheck, hash.length = 32)
    (padding : Bytes) :
    readCrosscheck.run (crosscheck.getD [] ++ (putLE 1 datumTerminator ++ padding)) =
      if crosscheck = none ∧ 31 ≤ padding.length then
        some (some (putLE 1 datumTerminator ++ padding.take 31), padding.drop 31)
      else some (crosscheck, putLE 1 datumTerminator ++ padding) := by
  have hterminator : (putLE 1 (datumTerminator : ℕ)).length = 1 := length_putLE ..
  have hremaining (rest : Bytes) : remaining.run rest = some (rest.length, rest) := rfl
  have hread (rest : Bytes) (hlong : 32 ≤ rest.length) :
      (readBytes 32).run rest = some (rest.take 32, rest.drop 32) := if_pos hlong
  rw [readCrosscheck, run_bind (hremaining _)]
  cases hcrosscheck : crosscheck with
  | some hash =>
    have hhash := h hash hcrosscheck
    have hlong : 32 ≤ (hash ++ (putLE 1 (datumTerminator : ℕ) ++ padding)).length := by
      rw [List.length_append, hhash]
      omega
    rw [Option.getD_some, if_pos hlong, run_bind (hread _ hlong), List.take_left' hhash,
      List.drop_left' hhash, if_neg (fun hnone => Option.some_ne_none _ hnone.1)]
    rfl
  | none =>
    have hlength : (putLE 1 (datumTerminator : ℕ) ++ padding).length = padding.length + 1 := by
      rw [List.length_append, hterminator, Nat.add_comm]
    rw [Option.getD_none, List.nil_append, hlength]
    by_cases hlong : 31 ≤ padding.length
    · have hlong' : 32 ≤ (putLE 1 (datumTerminator : ℕ) ++ padding).length := by
        rw [hlength]
        omega
      rw [if_pos (show 32 ≤ padding.length + 1 by omega), run_bind (hread _ hlong'),
        if_pos ⟨rfl, hlong⟩]
      rfl
    · rw [if_neg (show ¬ 32 ≤ padding.length + 1 by omega), if_neg fun hboth => hlong hboth.2]
      rfl

/-- What the decoder makes of short ids and their padding. -/
theorem shortTxIds_yields (jobId : ℕ) {shortTxIds : List Bytes} {crosscheck : Option Bytes}
    (hlength : shortTxIds.length ≤ 65535) (hids : ∀ id ∈ shortTxIds, id.length = 6)
    (hcrosscheck : ∀ hash ∈ crosscheck, hash.length = 32) (padding : Bytes) :
    ∃ result, Yields (writeShortTxIds shortTxIds crosscheck >>= fun _ =>
        writeTerminatorAndPadding padding)
      (readShortTxIdsResponse jobId validationSuccess) result ∧
      (result = some (.shortTxIds jobId validationSuccess shortTxIds.length shortTxIds crosscheck) ↔
        (crosscheck = none → padding.length < 31)) := by
  have hwritten (written : Bytes) : (writeBytes (crosscheck.getD []) >>= fun _ =>
      writeTerminatorAndPadding padding).run written =
        some ((), written ++ (crosscheck.getD [] ++ (putLE 1 datumTerminator ++ padding))) := by
    show some ((), ((written ++ crosscheck.getD []) ++ putLE 1 datumTerminator) ++ padding) = _
    rw [List.append_assoc, List.append_assoc]
  have hrun := run_readCrosscheck hcrosscheck padding
  have hfront {result : Option DatumJobValidationMessage}
      (hend : Yields (writeBytes (crosscheck.getD []) >>= fun _ =>
          writeTerminatorAndPadding padding)
        (readCrosscheck >>= fun crosscheck => consumeDatumTerminatorAndPadding >>= fun _ =>
          pure (.shortTxIds jobId validationSuccess shortTxIds.length shortTxIds crosscheck))
        result) :
      Yields (writeShortTxIds shortTxIds crosscheck >>= fun _ => writeTerminatorAndPadding padding)
        (readShortTxIdsResponse jobId validationSuccess) result := by
    simp only [writeShortTxIds, bind_assoc]
    rw [readShortTxIdsResponse, if_neg (not_not.mpr rfl)]
    exact (u16 (Nat.lt_succ_of_le hlength)).yields <|
      (RoundTrips.forM_times fun id hid => bytes (hids id hid)).yields hend
  by_cases hambiguous : crosscheck = none ∧ 31 ≤ padding.length
  · rw [if_pos hambiguous] at hrun
    refine ⟨_, hfront ⟨_, hwritten, rfl⟩, ?_⟩
    rw [run_bind hrun]
    refine iff_of_false (fun heq => ?_) fun h => Nat.not_lt.mpr hambiguous.2 (h hambiguous.1)
    -- Whatever follows, the answer has a crosscheck.
    have hmade := eq_of_run_bind_pure heq
    rw [hambiguous.1] at hmade
    exact Option.some_ne_none _ (DatumJobValidationMessage.shortTxIds.inj hmade).2.2.2.2
  · rw [if_neg hambiguous] at hrun
    refine ⟨_, hfront ⟨_, hwritten, rfl⟩, ?_⟩
    rw [run_bind hrun, run_bind (run_consumeDatumTerminatorAndPadding padding)]
    exact iff_of_true rfl fun hnone => Nat.lt_of_not_le fun hlong => hambiguous ⟨hnone, hlong⟩

/-- A refusal is read without its end. -/
theorem refusal_yields {α : Type} (message : α) (padding : Bytes) :
    Yields (pure () >>= fun _ => writeTerminatorAndPadding padding)
      (pure message : BufferReader α) (some message) := by
  refine ⟨putLE 1 datumTerminator ++ padding, fun written => ?_, rfl⟩
  show some ((), (written ++ putLE 1 datumTerminator) ++ padding) = _
  rw [List.append_assoc]

/-- The three bytes in front choose the branch of the decoder. -/
theorem validationResponse_yields {command jobId status : ℕ} (hcommand : IsU8 command)
    (hjobId : IsU8 jobId) (hstatus : IsU8 status) {write : BufferWriter Unit} {padding : Bytes}
    {result : Option DatumJobValidationMessage}
    (hbody : Yields ((if status = validationSuccess then write else pure ()) >>= fun _ =>
        writeTerminatorAndPadding padding)
      (readValidationBody command jobId status) result) :
    Yields (writeValidationResponse command jobId status write >>= fun _ =>
      writeTerminatorAndPadding padding) readJobValidationResponse result := by
  simp only [writeValidationResponse, bind_assoc]
  exact (u8 hcommand).yields <| (u8 hjobId).yields <| (u8 hstatus).yields hbody

namespace DatumJobValidationMessage

/-- An answer that is encoded with some padding is decoded to itself. -/
def Survives (response : DatumJobValidationMessage) (padding : Bytes) : Prop :=
  ∃ bytes, serializeDatumJobValidationResponse response padding = some bytes ∧
    deserializeDatumJobValidationResponse bytes = some response

/-- Short ids without a crosscheck are padded with at most 30 bytes, fewer than would make up a
crosscheck with the terminator. -/
def IsTold (padding : Bytes) : DatumJobValidationMessage → Prop
  | .shortTxIds _ status _ _ crosscheck =>
    status = validationSuccess → crosscheck = none → padding.length < 31
  | .fullTransactions .. | .fullTransactionBlob .. => True

theorem survives_iff {response : DatumJobValidationMessage} {padding : Bytes}
    {result : Option DatumJobValidationMessage}
    (h : Yields (writeJobValidationResponse response >>= fun _ =>
      writeTerminatorAndPadding padding) readJobValidationResponse result) :
    response.Survives padding ↔ result = some response := by
  obtain ⟨bytes, hbytes, hdecoded⟩ := h.output_eq
  constructor
  · rintro ⟨bytes', hbytes', hdecoded'⟩
    have hsame : bytes = bytes' := Option.some.inj (hbytes.symm.trans hbytes')
    rw [← hdecoded, hsame]
    exact hdecoded'
  · rintro rfl
    exact ⟨bytes, hbytes, hdecoded⟩

/-- Both answers with transactions survive. -/
theorem transactions_survive {kind : ℕ → ℕ → ℕ → List Bytes → DatumJobValidationMessage}
    {command jobId status transactionCount : ℕ} {transactions : List Bytes} (hcommand : IsU8 command)
    (hjobId : IsU8 jobId) (h : IsAnswered status transactionCount transactions)
    (htransactions : ∀ transaction ∈ transactions, transaction.length < 2 ^ 24)
    (hwrite : writeJobValidationResponse (kind jobId status transactionCount transactions) =
      writeValidationResponse command jobId status (writeTransactionList transactions))
    (hread : readValidationBody command jobId status =
      deserializeDatumTransactionListResponse kind jobId status)
    (padding : Bytes) :
    (kind jobId status transactionCount transactions).Survives padding := by
  have hbody : Yields
      ((if status = validationSuccess then writeTransactionList transactions else pure ()) >>=
        fun _ => writeTerminatorAndPadding padding)
      (readValidationBody command jobId status)
      (some (kind jobId status transactionCount transactions)) := by
    rw [hread]
    by_cases hstatus : status = validationSuccess
    · have hlist := @transactionList_yields kind jobId _ h.length_le htransactions padding
      rw [if_pos hstatus, hstatus, ← h.length_eq]
      exact hlist
    · have hnil := h.refused hstatus
      have hcount : transactionCount = 0 := by rw [← h.length_eq, hnil, List.length_nil]
      rw [if_neg hstatus, deserializeDatumTransactionListResponse, if_pos hstatus, hnil, hcount]
      exact refusal_yields _ padding
  have hresponse := validationResponse_yields hcommand hjobId h.isU8 hbody
  rw [← hwrite] at hresponse
  exact (survives_iff hresponse).mpr rfl

end DatumJobValidationMessage

open DatumJobValidationMessage in
/-- An answer about the transactions of a job survives the wire if and only if it is not short ids
without a crosscheck and with padding that makes up one. -/
theorem jobValidationResponse_survives_iff {response : DatumJobValidationMessage}
    (h : response.InRange) (padding : Bytes) :
    response.Survives padding ↔ response.IsTold padding := by
  cases response with
  | shortTxIds jobId status transactionCount ids crosscheck =>
    obtain ⟨hjobId, hanswered, hids, hcrosscheck, hrefused⟩ := h
    have hcommand : IsU8 shortTxIdsResponse := show 0x90 < 2 ^ 8 by norm_num
    by_cases hstatus : status = validationSuccess
    · obtain ⟨result, hyields, hiff⟩ :=
        shortTxIds_yields jobId hanswered.length_le hids hcrosscheck padding
      have hresponse : Yields (writeJobValidationResponse
            (.shortTxIds jobId status transactionCount ids crosscheck) >>= fun _ =>
          writeTerminatorAndPadding padding) readJobValidationResponse result := by
        refine validationResponse_yields hcommand hjobId hanswered.isU8 ?_
        rw [if_pos hstatus, hstatus]
        exact hyields
      rw [survives_iff hresponse, ← hanswered.length_eq, hstatus, hiff]
      exact ⟨fun hlong _ => hlong, fun htold => htold rfl⟩
    · have hnil := hanswered.refused hstatus
      have hnone := hrefused hstatus
      have hcount : transactionCount = 0 := by rw [← hanswered.length_eq, hnil, List.length_nil]
      have hresponse : Yields (writeJobValidationResponse
            (.shortTxIds jobId status transactionCount ids crosscheck) >>= fun _ =>
          writeTerminatorAndPadding padding) readJobValidationResponse
          (some (.shortTxIds jobId status transactionCount ids crosscheck)) := by
        refine validationResponse_yields hcommand hjobId hanswered.isU8 ?_
        rw [if_neg hstatus, hnil, hnone, hcount]
        show Yields _ (readShortTxIdsResponse jobId status) _
        rw [readShortTxIdsResponse, if_pos hstatus]
        exact refusal_yields _ padding
      rw [survives_iff hresponse]
      exact iff_of_true rfl fun hsuccess => absurd hsuccess hstatus
  | fullTransactions jobId status transactionCount transactions =>
    obtain ⟨hjobId, hanswered, htransactions⟩ := h
    have hcommand : IsU8 fullTransactionsResponse := show 0x91 < 2 ^ 8 by norm_num
    exact iff_of_true
      (transactions_survive hcommand hjobId hanswered htransactions rfl rfl padding) trivial
  | fullTransactionBlob jobId status transactionCount transactions =>
    obtain ⟨hjobId, hanswered, htransactions⟩ := h
    have hcommand : IsU8 fullTransactionBlobResponse := show 0x92 < 2 ^ 8 by norm_num
    exact iff_of_true
      (transactions_survive hcommand hjobId hanswered htransactions rfl rfl padding) trivial

/-! ### Samples -/

namespace DatumMessagesSample

/-- A job of a small block. -/
def job (height : ℕ) : DatumPowJob where
  prevBlockHash := List.replicate 32 7
  targetByteIndex := 40
  nBits := [0xff, 0xff, 0x7f, 0x20]
  coinbaserId := 1
  height := height
  coinbaseValue := 5000000000
  transactionCount := 1
  totalWeight := 800
  totalSize := 200
  totalSigops := 4
  merkleBranches := [List.replicate 32 9]

/-- Two jobs, a coinbase that is sent again, and one without fees. -/
def submission : DatumPowSubmission where
  jobId := 3
  coinbaseId := 2
  isBlock := false
  subsidyOnly := false
  quickDiff := true
  unusedFlags := 1
  targetByte := 10
  ntime := 1700000000
  nonce := 0xdeadbeef
  version := 0x20000000
  extranonce := List.replicate 12 5
  username := "bc1qüser.rig"
  reserved := [0, 0, 0, 0]
  sections := [.job (job 100), .coinbase 2 ⟨[1], [2, 3]⟩, .coinbase 255 ⟨[4], []⟩,
    .job (job 101), .coinbase 2 ⟨[5, 6], [7]⟩]

theorem job_inRange {height : ℕ} (h : height < 2 ^ 32) : (job height).InRange where
  prevBlockHash := rfl
  targetByteIndex := show 40 < 2 ^ 16 by norm_num
  nBits := rfl
  coinbaserId := show 1 < 2 ^ 8 by norm_num
  height := h
  coinbaseValue := show 5000000000 < 2 ^ 64 by norm_num
  transactionCount := show 1 < 2 ^ 32 by norm_num
  totalWeight := show 800 < 2 ^ 32 by norm_num
  totalSize := show 200 < 2 ^ 32 by norm_num
  totalSigops := show 4 < 2 ^ 32 by norm_num
  merkleBranchCount := show 1 ≤ 255 by norm_num
  merkleBranches := fun branch hbranch => by
    rw [List.mem_singleton.mp hbranch]
    rfl

theorem submission_inRange : submission.InRange where
  jobId := show 3 < 2 ^ 8 by norm_num
  coinbaseId := show 2 < 2 ^ 8 by norm_num
  unusedFlags := show 1 < 2 ^ 5 by norm_num
  targetByte := show 10 < 2 ^ 8 by norm_num
  ntime := show 1700000000 < 2 ^ 32 by norm_num
  nonce := show 0xdeadbeef < 2 ^ 32 by norm_num
  version := show 0x20000000 < 2 ^ 32 by norm_num
  extranonce := rfl
  username := by decide +kernel
  reserved := rfl
  sections := by
    have hcoinbase {id : ℕ} (hid : id < 2 ^ 8) {pair : CoinbasePair}
        (hpair : pair.coinb1.length ≤ 65535 ∧ pair.coinb2.length ≤ 65535) :
        (DatumPowSection.coinbase id pair).InRange := ⟨hid, hpair⟩
    simp only [submission, List.forall_mem_cons, List.not_mem_nil, false_imp_iff, implies_true,
      and_true]
    exact ⟨job_inRange (by norm_num), hcoinbase (by norm_num) (by decide),
      hcoinbase (by norm_num) (by decide), job_inRange (by norm_num),
      hcoinbase (by norm_num) (by decide)⟩

/-- Short ids without a crosscheck. -/
def shortTxIds : DatumJobValidationMessage :=
  .shortTxIds 3 validationSuccess 1 [[1, 2, 3, 4, 5, 6]] none

theorem shortTxIds_inRange : shortTxIds.InRange := by
  refine ⟨show 3 < 2 ^ 8 by norm_num, ⟨show 1 < 2 ^ 8 by norm_num, rfl, fun h => absurd rfl h, ?_⟩,
    ?_, fun hash hhash => absurd hhash (Option.not_mem_none hash), fun h => absurd rfl h⟩
  · decide
  · decide

end DatumMessagesSample

open DatumMessagesSample

theorem powSubmit_survives_sample :
    ∃ bytes message, serializeDatumPowSubmission submission [1, 2, 0xfe] = some bytes ∧
      deserializeDatumPowSubmit bytes = some message ∧ submission.IsReadAs message :=
  powSubmit_survives submission_inRange [1, 2, 0xfe]

theorem jobValidationResponse_survives_iff_sample :
    shortTxIds.Survives (List.replicate 30 0) ↔ shortTxIds.IsTold (List.replicate 30 0) :=
  jobValidationResponse_survives_iff shortTxIds_inRange (List.replicate 30 0)

/-- One byte more, and the decoder finds a crosscheck. -/
theorem not_jobValidationResponse_survives :
    ¬ ∀ response : DatumJobValidationMessage, response.InRange → ∀ padding,
      response.Survives padding := by
  intro h
  obtain ⟨bytes, hbytes, hdecoded⟩ := h shortTxIds shortTxIds_inRange (List.replicate 31 0)
  have hboth : (serializeDatumJobValidationResponse shortTxIds (List.replicate 31 0)).bind
      deserializeDatumJobValidationResponse = some shortTxIds := by
    rw [hbytes]
    exact hdecoded
  revert hboth
  decide +kernel

end PublicPool.Datum
