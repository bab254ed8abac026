import PublicPool.Lib.Utf8Ascii
import PublicPool.ProtocolDetection

/-!
# `PublicPool.Proofs.ProtocolDetection`: which first chunks are misrouted

The first message of a Noise handshake is 64 bytes that look random, and a request line may name
its fields anywhere and have any characters in its strings. The guesses of `detectProtocol` hold
neither in all cases.

`detectProtocol_iff` says which chunks are routed as they should be. 64 bytes reach the V2 client
unless they read as something else: a brace with the name of a field after it, a TLS record, an
HTTP method (in any case, and with any high bits, which the decoder drops), or nothing but plain
text. A request line reaches the V1 client if and only if one of the two names is in the window
after its brace, or the whole chunk is plain text. An ASCII line is safe at every cut; a line
with another character before the names is not.
-/

set_option autoImplicit false

namespace PublicPool.StratumV1Service

open Lib

/-! ### What a chunk reads as -/

/-- The names of fields that make a JSON text a request. -/
def requestNames : List Bytes := ["\"method\"", "\"id\""].map fun name => Utf8.encode name.toList

/-- One of the names is in the window at the start of a text. -/
def NamesRequest (text : Bytes) : Prop := ∃ name ∈ requestNames, name <:+: text.take 256

/-- White space, and then a brace with a name in the window after it. -/
def ReadsAsRequest (chunk : Bytes) : Prop :=
  ∃ space rest, (∀ byte ∈ space, isSpace byte = true) ∧ chunk = space ++ 0x7b :: rest ∧
    NamesRequest (0x7b :: rest)

/-- The header of a TLS record. -/
def ReadsAsTls (chunk : Bytes) : Prop := ∃ rest, chunk = 0x16 :: 0x03 :: rest

/-- An HTTP method, up to the case and the high bits. -/
def ReadsAsHttp (chunk : Bytes) : Prop :=
  ∃ method ∈ httpMethods, method.toList <+: asciiUpperCase chunk

/-- Nothing but plain text. -/
def IsPlaintext (chunk : Bytes) : Prop := ∀ byte ∈ chunk, isPlain byte = true

/-! ### The guesses -/

section
variable {chunk space rest : Bytes}

theorem looksLikePlaintext_iff : looksLikePlaintext chunk = true ↔ IsPlaintext chunk :=
  List.all_eq_true

theorem looksLikeTlsClientHello_iff (hlength : 3 ≤ chunk.length) :
    looksLikeTlsClientHello chunk = true ↔ ReadsAsTls chunk := by
  rcases chunk with _ | ⟨first, _ | ⟨second, rest⟩⟩
  · cases hlength
  · simp at hlength
  · unfold looksLikeTlsClientHello ReadsAsTls
    have hlong : 1 ≤ rest.length := by simpa using hlength
    simp [hlong]

theorem looksLikeHttpRequest_iff : looksLikeHttpRequest chunk = true ↔ ReadsAsHttp chunk := by
  have hshort : ∀ method ∈ httpMethods, method.toList.length ≤ 8 := by decide
  have hstart : asciiUpperCase (chunk.take 8) = (asciiUpperCase chunk).take 8 := List.map_take
  unfold looksLikeHttpRequest ReadsAsHttp
  simp only [hstart, List.any_eq_true, List.isPrefixOf_iff_prefix]
  refine exists_congr fun method => and_congr_right fun hmethod => ?_
  rw [List.prefix_take_iff]
  exact and_iff_left (hshort method hmethod)

/-- The two words are looked for in the text, and they stand where their bytes stand. -/
theorem includes_decode_iff (window : Bytes) :
    (includes (Utf8.decode window) "\"method\"".toList ||
      includes (Utf8.decode window) "\"id\"".toList) = true ↔
        ∃ name ∈ requestNames, name <:+: window := by
  have hword (word : Bytes) (hne : word ≠ []) (hascii : ∀ b ∈ word, Utf8.IsAscii b) :
      includes (Utf8.decode window) (word.map Utf8.asChar) = true ↔ word <:+: window := by
    rw [includes, decide_eq_true_iff]
    exact Utf8.isInfix_decode_iff hne hascii window
  have hmethod := hword (Utf8.encode "\"method\"".toList) (by decide) (by decide +kernel)
  have hid := hword (Utf8.encode "\"id\"".toList) (by decide) (by decide +kernel)
  have hchars : (Utf8.encode "\"method\"".toList).map Utf8.asChar = "\"method\"".toList ∧
      (Utf8.encode "\"id\"".toList).map Utf8.asChar = "\"id\"".toList := by decide
  rw [hchars.1] at hmethod
  rw [hchars.2] at hid
  rw [Bool.or_eq_true, hmethod, hid, requestNames]
  simp

theorem findIdx_brace (hspace : ∀ byte ∈ space, isSpace byte = true) :
    (space ++ 0x7b :: rest).findIdx? (fun byte => !isSpace byte) = some space.length := by
  induction space with
  | nil => rfl
  | cons byte space ih =>
    have hbyte : isSpace byte = true := hspace byte List.mem_cons_self
    rw [List.cons_append, List.findIdx?_cons, hbyte,
      ih fun byte' h => hspace byte' (List.mem_cons_of_mem byte h)]
    rfl

theorem looksLikeJsonRpc_brace (hspace : ∀ byte ∈ space, isSpace byte = true) :
    looksLikeJsonRpc (space ++ 0x7b :: rest) = true ↔
      NamesRequest (0x7b :: rest) ∨ IsPlaintext (space ++ 0x7b :: rest) := by
  have hat : (space ++ 0x7b :: rest)[space.length]? = some (0x7b : UInt8) := by simp
  have hdrop : (space ++ 0x7b :: rest).drop space.length = (0x7b : UInt8) :: rest := by simp
  unfold looksLikeJsonRpc
  simp only [findIdx_brace hspace, hat, hdrop]
  rw [if_neg (by simp)]
  have hnames := includes_decode_iff ((0x7b :: rest).take 256)
  by_cases hfound : ∃ name ∈ requestNames, name <:+: ((0x7b : UInt8) :: rest).take 256
  · rw [if_pos (hnames.mpr hfound)]
    exact iff_of_true rfl (Or.inl hfound)
  · rw [if_neg fun h => hfound (hnames.mp h)]
    exact List.all_eq_true.trans (or_iff_right hfound).symm

/-- Only a chunk with a brace after white space looks like JSON-RPC. -/
theorem exists_brace_of_looksLikeJsonRpc (h : looksLikeJsonRpc chunk = true) :
    ∃ space rest, (∀ byte ∈ space, isSpace byte = true) ∧ chunk = space ++ 0x7b :: rest := by
  unfold looksLikeJsonRpc at h
  split at h
  · cases h
  · rename_i i hfirst
    split at h
    · cases h
    · rename_i hbrace
      obtain ⟨hi, -, hbefore⟩ := List.findIdx?_eq_some_iff_getElem.mp hfirst
      have hat : chunk[i] = 0x7b := by
        rw [List.getElem?_eq_getElem hi] at hbrace
        exact Option.some.inj (not_not.mp hbrace)
      refine ⟨chunk.take i, chunk.drop (i + 1), ?_, ?_⟩
      · intro byte hbyte
        obtain ⟨j, hj, rfl⟩ := List.mem_take_iff_getElem.mp hbyte
        have hspace := hbefore j (Nat.lt_of_lt_of_le hj (Nat.min_le_left _ _))
        simpa using hspace
      · rw [← hat, List.getElem_cons_drop, List.take_append_drop]

theorem looksLikeJsonRpc_iff :
    looksLikeJsonRpc chunk = true ↔ ReadsAsRequest chunk ∨
      IsPlaintext chunk ∧ ∃ space rest, (∀ byte ∈ space, isSpace byte = true) ∧
        chunk = space ++ 0x7b :: rest := by
  constructor
  · intro h
    obtain ⟨space, rest, hspace, rfl⟩ := exists_brace_of_looksLikeJsonRpc h
    rcases (looksLikeJsonRpc_brace hspace).mp h with hnames | hplain
    · exact Or.inl ⟨space, rest, hspace, rfl, hnames⟩
    · exact Or.inr ⟨hplain, space, rest, hspace, rfl⟩
  · rintro (⟨space, rest, hspace, rfl, hnames⟩ | ⟨hplain, space, rest, hspace, rfl⟩)
    · exact (looksLikeJsonRpc_brace hspace).mpr (Or.inl hnames)
    · exact (looksLikeJsonRpc_brace hspace).mpr (Or.inr hplain)

/-! ### The detection -/

theorem detectProtocol_v1_iff :
    detectProtocol chunk = some .v1 ↔ looksLikeJsonRpc chunk = true := by
  unfold detectProtocol
  by_cases hempty : chunk.length = 0
  · obtain rfl := List.eq_nil_of_length_eq_zero hempty
    decide
  · rw [if_neg hempty]
    by_cases hjson : looksLikeJsonRpc chunk = true
    · rw [if_pos hjson]
      exact iff_of_true rfl hjson
    · rw [if_neg hjson]
      refine iff_of_false ?_ hjson
      split_ifs <;> simp

/-- What reads as nothing else is taken for V2. -/
theorem detectProtocol_v2_iff (hlength : 3 ≤ chunk.length) :
    detectProtocol chunk = some .v2 ↔ ¬ ReadsAsRequest chunk ∧ ¬ ReadsAsTls chunk ∧
      ¬ ReadsAsHttp chunk ∧ ¬ IsPlaintext chunk := by
  rw [← looksLikeTlsClientHello_iff hlength, ← looksLikeHttpRequest_iff,
    ← looksLikePlaintext_iff]
  have hjson := @looksLikeJsonRpc_iff chunk
  rw [← looksLikePlaintext_iff] at hjson
  unfold detectProtocol
  rw [if_neg (show chunk.length ≠ 0 by omega)]
  by_cases hplain : looksLikePlaintext chunk = true
  · -- plain text is either a request or refused
    refine iff_of_false ?_ fun h => h.2.2.2 hplain
    split_ifs <;> simp
  · have hrequest : looksLikeJsonRpc chunk = true ↔ ReadsAsRequest chunk :=
      hjson.trans (or_iff_left fun h => hplain h.1)
    rw [← hrequest]
    split_ifs <;> simp_all

end

/-- Which first chunks are routed as they should be. A first message of a Noise handshake, with
or without more behind it, reaches the V2 client if and only if it reads as nothing else. The
beginning of a request line, cut anywhere after the brace, reaches the V1 client if and only if it
names a field of a request in the window or is plain text throughout. -/
theorem detectProtocol_iff (act1 following space rest : Bytes) :
    (act1.length = 64 →
      (detectProtocol (act1 ++ following) = some .v2 ↔
        ¬ ReadsAsRequest (act1 ++ following) ∧ ¬ ReadsAsTls (act1 ++ following) ∧
          ¬ ReadsAsHttp (act1 ++ following) ∧ ¬ IsPlaintext (act1 ++ following))) ∧
    ((∀ byte ∈ space, isSpace byte = true) →
      (detectProtocol (space ++ 0x7b :: rest) = some .v1 ↔
        NamesRequest (0x7b :: rest) ∨ IsPlaintext (space ++ 0x7b :: rest))) := by
  refine ⟨?_, ?_⟩
  · intro hlength
    refine detectProtocol_v2_iff ?_
    rw [List.length_append, hlength]
    omega
  · intro hspace
    exact detectProtocol_v1_iff.trans (looksLikeJsonRpc_brace hspace)

/-! ### Chunks that are misrouted -/

namespace DetectionSample

/-- 64 bytes that start like a TLS record. -/
def tlsAct1 : Bytes := 0x16 :: 0x03 :: List.replicate 62 0xaa

/-- 64 bytes that start like a HTTP request once the high bits are dropped. -/
def getAct1 : Bytes := 0xc7 :: 0xe5 :: 0xd4 :: 0xa0 :: List.replicate 60 0xaa

/-- A request with the worker name in front of the names. -/
def requestLine : Bytes :=
  Utf8.encode
    "\x7b\"params\":[\"A.ñ\"],\"id\":1,\"method\":\"mining.authorize\"\x7d\n".toList

/-- Its first segment ends in the worker name. -/
def segment : Bytes := requestLine.take 16

end DetectionSample

open DetectionSample in
/-- Some 64 bytes are refused, and a request line is routed to V2 when it is cut in front of its
names. -/
theorem not_detectProtocol :
    (¬ ∀ act1 following : Bytes, act1.length = 64 →
      detectProtocol (act1 ++ following) = some .v2) ∧
    (¬ ∀ space rest : Bytes, (∀ byte ∈ space, isSpace byte = true) →
      space ++ 0x7b :: rest <+: requestLine →
        detectProtocol (space ++ 0x7b :: rest) = some .v1) ∧
    getAct1.length = 64 ∧ detectProtocol getAct1 = none := by
  have hrefused : detectProtocol (tlsAct1 ++ []) ≠ some .v2 := by decide +kernel
  have hmisrouted : detectProtocol ([] ++ 0x7b :: segment.tail) ≠ some .v1 := by decide +kernel
  have hcut : [] ++ 0x7b :: segment.tail <+: requestLine := by decide +kernel
  refine ⟨fun h => hrefused (h tlsAct1 [] (by decide)), ?_, by decide, by decide +kernel⟩
  exact fun h => hmisrouted (h [] segment.tail (fun _ hbyte => absurd hbyte List.not_mem_nil) hcut)

open DetectionSample in
theorem detectProtocol_iff_sample :
    detectProtocol (List.replicate 64 0xaa ++ [0x01]) = some .v2 ∧
      detectProtocol ([0x20] ++ 0x7b :: requestLine.tail) = some .v1 := by
  obtain ⟨hact1, hline⟩ :=
    detectProtocol_iff (List.replicate 64 0xaa) [0x01] [0x20] requestLine.tail
  have hacts := hact1 (by decide)
  have hlines := hline (by decide +kernel)
  refine ⟨hacts.mpr ⟨?_, ?_, ?_, ?_⟩, hlines.mpr (Or.inl ?_)⟩
  · rintro ⟨space, rest, hspace, hchunk, -⟩
    cases space with
    | nil => simp [List.replicate_succ] at hchunk
    | cons byte space =>
      have hbyte : byte = 0xaa := by
        simp only [List.replicate_succ, List.cons_append, List.cons.injEq] at hchunk
        exact hchunk.1.symm
      have hspaces := hspace byte List.mem_cons_self
      rw [hbyte] at hspaces
      exact absurd hspaces (by decide)
  · rintro ⟨rest, hchunk⟩
    simp [List.replicate_succ] at hchunk
  · rintro ⟨method, hmethod, hstarts⟩
    revert hstarts
    revert method
    decide +kernel
  · intro hplain
    exact absurd (hplain 0xaa (by simp)) (by decide)
  · refine ⟨Utf8.encode "\"id\"".toList, by decide +kernel, ?_⟩
    decide +kernel

end PublicPool.StratumV1Service
