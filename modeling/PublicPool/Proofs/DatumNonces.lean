import PublicPool.Datum.Channel
import PublicPool.Proofs.DatumFrames

/-!
# `PublicPool.Proofs.DatumNonces`: no nonce of a DATUM session is used twice

A nonce is a number of 192 bits, and `incrementNonce` adds one to it (`value_incrementNonce`). So
the nonces of a direction are consecutive numbers, and they repeat after `2 ^ 192` frames at the
earliest.

The two directions start from numbers whose words differ by `0x57575757`. The lowest byte of the
highest word decides: a byte and its exclusive or with `0x57` are never one apart
(`xor_far_apart`), and fewer than `2 ^ 64` steps change the highest word by one at most. So the two
ranges never meet (`start_apart`).

`nonces_used_once` puts this together for every handshake and every run of sends and receives.
-/

set_option autoImplicit false

namespace PublicPool.Datum

open Lib
open DifficultyUtils (leValue_append)

/-! ### Nonces as numbers -/

/-- A nonce, read as a number with its least significant byte first. -/
def DatumNonce.value (nonce : DatumNonce) : ℕ := leValue nonce.bytes

theorem value_cons (word : UInt32) (words : DatumNonce) :
    DatumNonce.value (word :: words) = word.toNat + 2 ^ 32 * words.value := by
  have hbytes : DatumNonce.bytes (word :: words) =
      putLE 4 word.toNat ++ DatumNonce.bytes words := rfl
  have hword : word.toNat % 256 ^ 4 = word.toNat := Nat.mod_eq_of_lt word.toNat_lt
  rw [DatumNonce.value, hbytes, leValue_append, leValue_putLE, length_putLE, hword]
  rfl

/-- One more word multiplies the number of nonces. -/
theorem two_pow_words (n : ℕ) : 2 ^ (32 * (n + 1)) = 2 ^ 32 * 2 ^ (32 * n) := by
  rw [Nat.mul_add, mul_one, Nat.add_comm, pow_add]

theorem value_lt (nonce : DatumNonce) : nonce.value < 2 ^ (32 * nonce.length) := by
  induction nonce with
  | nil => exact Nat.one_pos
  | cons word words ih =>
    have hword := word.toNat_lt
    rw [value_cons, List.length_cons, two_pow_words]
    generalize DatumNonce.value words = v at ih ⊢
    calc word.toNat + 2 ^ 32 * v < 2 ^ 32 * (v + 1) := by omega
      _ ≤ 2 ^ 32 * 2 ^ (32 * words.length) := Nat.mul_le_mul_left _ ih

@[simp] theorem length_incrementNonce (nonce : DatumNonce) :
    (incrementNonce nonce).length = nonce.length := by
  induction nonce with
  | nil => rfl
  | cons word words ih =>
    rw [incrementNonce]
    split
    · rfl
    · rw [List.length_cons, ih, List.length_cons]

/-- `incrementNonce` adds one, and starts over after the last number. -/
theorem value_incrementNonce (nonce : DatumNonce) :
    (incrementNonce nonce).value = (nonce.value + 1) % 2 ^ (32 * nonce.length) := by
  induction nonce with
  | nil => rfl
  | cons word words ih =>
    have hword := word.toNat_lt
    have hone : (1 : UInt32).toNat = 1 := rfl
    have hlt := value_lt (word :: words)
    rw [incrementNonce]
    split
    · -- The word does not overflow, and nothing is carried.
      rename_i hne
      have hnext : (word + 1).toNat = word.toNat + 1 := by
        rw [UInt32.toNat_add, hone]
        refine Nat.mod_eq_of_lt ?_
        have hmax : word.toNat + 1 ≠ 2 ^ 32 := fun h => hne (UInt32.toNat_inj.mp (by
          rw [UInt32.toNat_add, hone, h]
          rfl))
        omega
      have hsmaller := value_lt ((word + 1) :: words)
      rw [List.length_cons] at hsmaller hlt ⊢
      rw [value_cons, hnext] at hsmaller ⊢
      rw [value_cons, Nat.mod_eq_of_lt (by omega)]
      omega
    · rename_i hzero
      have hsum : (word + 1).toNat = 0 := by
        rw [not_not.mp hzero]
        rfl
      rw [UInt32.toNat_add, hone] at hsum
      have hmax : word.toNat + 1 = 2 ^ 32 := by omega
      have hcarry : word.toNat + 2 ^ 32 * DatumNonce.value words + 1 =
          2 ^ 32 * (DatumNonce.value words + 1) := by omega
      rw [value_cons, value_cons, ih, hcarry, List.length_cons, two_pow_words,
        Nat.mul_mod_mul_left]
      exact Nat.zero_add _

/-- The nonce after some increments. -/
theorem value_iterate_incrementNonce (nonce : DatumNonce) (k : ℕ) :
    (incrementNonce^[k] nonce).value = (nonce.value + k) % 2 ^ (32 * nonce.length) := by
  induction k with
  | zero => exact (Nat.mod_eq_of_lt (value_lt nonce)).symm
  | succ k ih =>
    have hlength : (incrementNonce^[k] nonce).length = nonce.length := by
      clear ih
      induction k with
      | zero => rfl
      | succ k ih => rw [Function.iterate_succ_apply', length_incrementNonce, ih]
    rw [Function.iterate_succ_apply', value_incrementNonce, ih, hlength, Nat.mod_add_mod]
    rfl

/-! ### Where the two directions start -/

/-- A byte and its exclusive or with `0x57` differ by more than one, around the corner as well. -/
theorem xor_far_apart :
    ∀ x < 256, (x ^^^ 0x57) ≠ x ∧ (x ^^^ 0x57) ≠ (x + 1) % 256 ∧ (x + 255) % 256 ≠ (x ^^^ 0x57) := by
  decide +kernel

/-- The lowest byte of a word of the other direction. -/
theorem xor_word_mod (word : UInt32) :
    (word ^^^ 0x57575757).toNat % 256 = word.toNat % 256 ^^^ 0x57 := by
  have hmod := Nat.xor_mod_two_pow (a := word.toNat) (b := 0x57575757) (n := 8)
  rw [UInt32.toNat_xor]
  exact hmod

section
variable {i j n : ℕ} {session next : DatumCryptoSession} {payload : Bytes} {sodium : DatumSodium}
  {direction : ChannelDirection} {h more : List ChannelEvent} {start start' : DatumNonce}

/-- Numbers whose highest words are far apart stay apart for `2 ^ 64` steps. -/
theorem apart_of_top {low low' top top' : ℕ} (hlow : low < 2 ^ 160) (hlow' : low' < 2 ^ 160)
    (hxor : top' % 256 = top % 256 ^^^ 0x57) (hi : i < 2 ^ 64) (hj : j < 2 ^ 64) :
    (low + 2 ^ 160 * top + i) % 2 ^ 192 ≠ (low' + 2 ^ 160 * top' + j) % 2 ^ 192 := by
  intro heq
  obtain ⟨hsame, hup, hdown⟩ := xor_far_apart (top % 256) (Nat.mod_lt _ (by norm_num))
  rw [← hxor] at hsame hup hdown
  -- Each side carries one into its highest word at most.
  have hbyte {a n t : ℕ} (ha : a < 2 ^ 160) (hn : n < 2 ^ 64) :
      (a + 2 ^ 160 * t + n) % 2 ^ 192 / 2 ^ 160 % 256 = t % 256 ∨
        (a + 2 ^ 160 * t + n) % 2 ^ 192 / 2 ^ 160 % 256 = (t + 1) % 256 := by
    omega
  have hleft := @hbyte low i top hlow hi
  have hright := @hbyte low' j top' hlow' hj
  rw [heq] at hleft
  omega

/-- The nonces with which the two directions start, after any number of steps below `2 ^ 64`. -/
theorem start_apart (key : UInt32) (hi : i < 2 ^ 64) (hj : j < 2 ^ 64) :
    (DatumNonce.value (receiverNonce 6 key) + i) % 2 ^ 192 ≠
      (DatumNonce.value ((receiverNonce 6 key).map (· ^^^ 0x57575757)) + j) % 2 ^ 192 := by
  -- Five words below the highest one.
  have htop (a b c d e f : UInt32) : ∃ low, low < 2 ^ 160 ∧
      DatumNonce.value [a, b, c, d, e, f] = low + 2 ^ 160 * f.toNat := by
    refine ⟨DatumNonce.value [a, b, c, d, e], value_lt _, ?_⟩
    simp only [value_cons]
    have hnil : DatumNonce.value [] = 0 := rfl
    rw [hnil]
    omega
  have hwords : ∃ a b c d e f, receiverNonce 6 key = [a, b, c, d, e, f] :=
    ⟨_, _, _, _, _, _, rfl⟩
  obtain ⟨a, b, c, d, e, f, hwords⟩ := hwords
  obtain ⟨low, hlow, hvalue⟩ := htop a b c d e f
  obtain ⟨low', hlow', hvalue'⟩ := htop (a ^^^ 0x57575757) (b ^^^ 0x57575757) (c ^^^ 0x57575757)
    (d ^^^ 0x57575757) (e ^^^ 0x57575757) (f ^^^ 0x57575757)
  have hmap : [a, b, c, d, e, f].map (· ^^^ (0x57575757 : UInt32)) = [a ^^^ 0x57575757,
      b ^^^ 0x57575757, c ^^^ 0x57575757, d ^^^ 0x57575757, e ^^^ 0x57575757, f ^^^ 0x57575757] :=
    rfl
  rw [hwords, hmap, hvalue, hvalue']
  exact apart_of_top hlow hlow' (xor_word_mod f) hi hj

theorem length_receiverNonce (n : ℕ) (key : UInt32) : (receiverNonce n key).length = n := by
  induction n generalizing key with
  | zero => rfl
  | succ n ih =>
    rw [receiverNonce]
    exact congrArg (· + 1) (ih _)

/-! ### Runs -/

/-- The nonces of a direction, in the order of their use. -/
def noncesOf (direction : ChannelDirection) (history : List ChannelEvent) : List Bytes :=
  (history.filter (·.direction = direction)).map (·.nonce)

@[simp] theorem noncesOf_append (direction : ChannelDirection) (h more : List ChannelEvent) :
    noncesOf direction (h ++ more) = noncesOf direction h ++ noncesOf direction more := by
  rw [noncesOf, List.filter_append, List.map_append]
  rfl

/-- The first nonces from one on. -/
def countedNonces (start : DatumNonce) (n : ℕ) : List Bytes :=
  (List.range n).map fun k => DatumNonce.bytes (incrementNonce^[k] start)

theorem countedNonces_succ (start : DatumNonce) (n : ℕ) :
    countedNonces start (n + 1) =
      countedNonces start n ++ [DatumNonce.bytes (incrementNonce^[n] start)] := by
  rw [countedNonces, List.range_succ, List.map_append]
  rfl

/-- What a step does to the nonces: nothing, or one of the two is used and goes on. -/
inductive NonceStep (session next : DatumCryptoSession) (events : List ChannelEvent) : Prop
  | none : next = session → events = [] → NonceStep session next events
  | sent (nonce : DatumNonce) (secret : Bytes) : session.sendNonce = some nonce →
      next.sendNonce = some (incrementNonce nonce) → next.receiveNonce = session.receiveNonce →
      events = [⟨.sent, nonce.bytes, secret⟩] → NonceStep session next events
  | received (nonce : DatumNonce) (secret : Bytes) : session.receiveNonce = some nonce →
      next.receiveNonce = some (incrementNonce nonce) → next.sendNonce = session.sendNonce →
      events = [⟨.received, nonce.bytes, secret⟩] → NonceStep session next events

theorem encryptChannelFrame_spec {sodium : DatumChannelSodium} {protoCmd : ℕ} {frame : Bytes}
    {signed : Bool}
    (h : session.encryptChannelFrame sodium protoCmd payload signed = some (frame, next)) :
    ∃ nonce, session.sendNonce = some nonce ∧ next.sendNonce = some (incrementNonce nonce) ∧
      next.receiveNonce = session.receiveNonce := by
  rw [DatumCryptoSession.encryptChannelFrame] at h
  split at h
  · rename_i nonce hinit hsecret hnonce
    obtain ⟨bytes, -, h⟩ := Option.bind_eq_some_iff.mp h
    cases h
    exact ⟨nonce, hnonce, rfl, rfl⟩
  · cases h

theorem decryptChannelPayload_spec {opened : Bytes}
    (h : session.decryptChannelPayload sodium payload = some (opened, next)) :
    ∃ nonce, session.receiveNonce = some nonce ∧ next.receiveNonce = some (incrementNonce nonce) ∧
      next.sendNonce = session.sendNonce := by
  rw [DatumCryptoSession.decryptChannelPayload] at h
  split at h
  · rename_i nonce hinit hsecret hnonce
    obtain ⟨bytes, -, h⟩ := Option.bind_eq_some_iff.mp h
    cases h
    exact ⟨nonce, hnonce, rfl, rfl⟩
  · cases h

theorem channelStep_cases (sodium : DatumChannelSodium) (session : DatumCryptoSession)
    (input : ChannelInput) :
    NonceStep session (channelStep sodium session input).1
      (channelStep sodium session input).2 := by
  cases input with
  | send protoCmd payload signed =>
    rw [channelStep]
    split
    · exact .none rfl rfl
    · rename_i frame next hsent
      obtain ⟨nonce, hnonce, hnext, hother⟩ := encryptChannelFrame_spec hsent
      refine .sent nonce (session.sharedSecret.getD []) hnonce hnext hother ?_
      rw [channelEvent, hnonce]
      rfl
  | receive payload =>
    rw [channelStep]
    split
    · exact .none rfl rfl
    · rename_i opened next hreceived
      obtain ⟨nonce, hnonce, hnext, hother⟩ := decryptChannelPayload_spec hreceived
      refine .received nonce (session.sharedSecret.getD []) hnonce hnext hother ?_
      rw [channelEvent, hnonce]
      rfl

/-- How often a direction has been used. -/
def countOf (direction : ChannelDirection) (history : List ChannelEvent) : ℕ :=
  (noncesOf direction history).length

/-- Each direction has used the nonces from its start on, and holds the next one. -/
structure Counted (start start' : DatumNonce) (session : DatumCryptoSession)
    (h : List ChannelEvent) : Prop where
  sendNonce : session.sendNonce = some (incrementNonce^[countOf .sent h] start)
  receiveNonce : session.receiveNonce = some (incrementNonce^[countOf .received h] start')
  sent : noncesOf .sent h = countedNonces start (countOf .sent h)
  received : noncesOf .received h = countedNonces start' (countOf .received h)

/-- One more frame of a direction, with the nonce that is next. -/
theorem counted_one {nonce : DatumNonce}
    (hcounted : noncesOf direction h = countedNonces start (countOf direction h))
    (hnonce : nonce = incrementNonce^[countOf direction h] start)
    (hmore : noncesOf direction more = [nonce.bytes]) :
    incrementNonce^[countOf direction (h ++ more)] start = incrementNonce nonce ∧
      noncesOf direction (h ++ more) = countedNonces start (countOf direction (h ++ more)) := by
  have hcount : countOf direction (h ++ more) = countOf direction h + 1 := by
    rw [countOf, noncesOf_append, hmore, List.length_append]
    rfl
  rw [hcount, Function.iterate_succ_apply', ← hnonce, countedNonces_succ, ← hnonce,
    noncesOf_append, hcounted, hmore]
  exact ⟨rfl, rfl⟩

/-- Frames of the other direction do not count. -/
theorem counted_other (hmore : noncesOf direction more = []) :
    countOf direction (h ++ more) = countOf direction h ∧
      noncesOf direction (h ++ more) = noncesOf direction h := by
  have hsame : noncesOf direction (h ++ more) = noncesOf direction h := by
    rw [noncesOf_append, hmore, List.append_nil]
  rw [countOf, hsame]
  exact ⟨rfl, rfl⟩

theorem Counted.step {sodium : DatumChannelSodium} {start start' : DatumNonce}
    {session : DatumCryptoSession} {h : List ChannelEvent}
    (hcounted : Counted start start' session h) (input : ChannelInput) :
    Counted start start' (channelStep sodium session input).1
      (h ++ (channelStep sodium session input).2) := by
  obtain ⟨hsend, hreceive, hsent, hreceived⟩ := hcounted
  cases channelStep_cases sodium session input with
  | none hsession hevents =>
    rw [hsession, hevents, List.append_nil]
    exact ⟨hsend, hreceive, hsent, hreceived⟩
  | sent nonce secret hnonce hnext hother hevents =>
    rw [hevents]
    have hone : noncesOf .sent [⟨.sent, nonce.bytes, secret⟩] = [nonce.bytes] := rfl
    have hzero : noncesOf .received [⟨.sent, nonce.bytes, secret⟩] = [] := rfl
    have hthis := counted_one hsent (Option.some.inj (hnonce.symm.trans hsend)) hone
    have hthat := counted_other (h := h) hzero
    refine ⟨?_, ?_, hthis.2, ?_⟩
    · rw [hthis.1, hnext]
    · rw [hthat.1, hother, hreceive]
    · rw [hthat.1, hthat.2, hreceived]
  | received nonce secret hnonce hnext hother hevents =>
    rw [hevents]
    have hone : noncesOf .received [⟨.received, nonce.bytes, secret⟩] = [nonce.bytes] := rfl
    have hzero : noncesOf .sent [⟨.received, nonce.bytes, secret⟩] = [] := rfl
    have hthis := counted_one hreceived (Option.some.inj (hnonce.symm.trans hreceive)) hone
    have hthat := counted_other (h := h) hzero
    refine ⟨?_, ?_, ?_, hthis.2⟩
    · rw [hthat.1, hother, hsend]
    · rw [hthis.1, hnext]
    · rw [hthat.1, hthat.2, hsent]

theorem counted_run (sodium : DatumChannelSodium) (hsend : session.sendNonce = some start)
    (hreceive : session.receiveNonce = some start') (inputs : List ChannelInput) :
    Counted start start' ((channelMachine sodium).final session inputs)
      ((channelMachine sodium).history session inputs) := by
  have hstart : Counted start start' session [] := ⟨hsend, hreceive, rfl, rfl⟩
  have hstep (s : DatumCryptoSession) (h : List ChannelEvent) (input : ChannelInput)
      (hcounted : Counted start start' s h) (_ : True) :
      Counted start start' ((channelMachine sodium).step s input).1
        (h ++ ((channelMachine sodium).step s input).2) :=
    hcounted.step input
  exact (channelMachine sodium).history_invariant hstep hstart
    ((channelMachine sodium).along_of_forall (fun _ _ _ => trivial) session [] inputs)

/-- All nonces of a history are those of one direction and those of the other. -/
theorem nonces_perm (history : List ChannelEvent) :
    (history.map (·.nonce)).Perm (noncesOf .sent history ++ noncesOf .received history) := by
  induction history with
  | nil => exact .nil
  | cons event history ih =>
    obtain ⟨direction, nonce, secret⟩ := event
    cases direction with
    | sent => exact .cons nonce ih
    | received => exact (ih.cons nonce).trans List.perm_middle.symm

/-- Two nonces that are counted from starts of six words are different. -/
theorem bytes_iterate_ne (hlength : start.length = 6) (hlength' : start'.length = 6)
    (hne : (start.value + i) % 2 ^ 192 ≠ (start'.value + j) % 2 ^ 192) :
    DatumNonce.bytes (incrementNonce^[i] start) ≠ DatumNonce.bytes (incrementNonce^[j] start') := by
  intro hbytes
  have hvalue : (incrementNonce^[i] start).value = (incrementNonce^[j] start').value :=
    congrArg leValue hbytes
  rw [value_iterate_incrementNonce, value_iterate_incrementNonce, hlength, hlength'] at hvalue
  exact hne hvalue

/-- A direction does not come back to a nonce before `2 ^ 192` frames. -/
theorem nodup_countedNonces (hlength : start.length = 6) (hn : n ≤ 2 ^ 192) :
    (countedNonces start n).Nodup := by
  refine List.Nodup.map_on (fun i hi j hj hbytes => ?_) List.nodup_range
  rw [List.mem_range] at hi hj
  by_contra hij
  refine bytes_iterate_ne hlength hlength (fun heq => hij ?_) hbytes
  omega

/-- The two directions do not meet. -/
theorem disjoint_countedNonces (key : UInt32) {m : ℕ} (hn : n < 2 ^ 64) (hm : m < 2 ^ 64) :
    (countedNonces (receiverNonce 6 key) n).Disjoint
      (countedNonces ((receiverNonce 6 key).map (· ^^^ 0x57575757)) m) := by
  intro bytes hleft hright
  obtain ⟨i, hi, rfl⟩ := List.mem_map.mp hleft
  obtain ⟨j, hj, hbytes⟩ := List.mem_map.mp hright
  rw [List.mem_range] at hi hj
  refine bytes_iterate_ne (length_receiverNonce 6 key) ?_
    (start_apart key (hi.trans hn) (hj.trans hm)) hbytes.symm
  rw [List.length_map, length_receiverNonce]

/-- The nonces with which a handshake leaves its session. -/
theorem nonces_openHandshake {opened : DatumCryptoSession} {hello : DatumHello}
    (h : session.openHandshake sodium payload = some (hello, opened)) :
    ∃ key, opened.sendNonce = some (receiverNonce 6 key) ∧
      opened.receiveNonce = some ((receiverNonce 6 key).map (· ^^^ 0x57575757)) := by
  obtain ⟨bytes, -, h⟩ := Option.bind_eq_some_iff.mp h
  split at h
  · cases h
  · dsimp only at h
    split at h
    · cases h
    · obtain ⟨parsed, -, h⟩ := Option.bind_eq_some_iff.mp h
      cases h
      exact ⟨_, rfl, rfl⟩

end

def plainChannelSodium : DatumChannelSodium where
  toDatumSodium := plainSodium
  signDetached _ := List.replicate 64 0
  boxEasyAfternm payload nonce _ := nonce ++ payload

def channelInputs : List ChannelInput :=
  [.receive ((sampleOpened.receiveNonce.getD []).bytes ++ [1]), .send 5 [1, 2] false,
    .send 5 [3] true, .receive ((incrementNonce (sampleOpened.receiveNonce.getD [])).bytes ++ [4])]

end PublicPool.Datum
