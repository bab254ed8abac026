import PublicPool.Lib.Utf8Pieces
import PublicPool.Proofs.MessageOrder

/-!
# `PublicPool.Proofs.LineFraming`: the lines of a stream and its cut into data events

`handleSocketData` decodes each piece of the stream on its own. Lines are split off the decoded text
in the same way however it is cut (`readAll_sv1Loops`), so what matters is whether a cut falls into
a character.

`lines_of_stream_iff`: an SV1 client reads the lines of the stream, and keeps its unfinished tail,
if and only if no cut falls before a byte that goes on with a character. With such a cut there are
more replacement characters in the lines and the tail than there are in those of the stream, and
lines keep all of them (`replaced_splitLines`).
-/

set_option autoImplicit false

namespace PublicPool.Proofs

open Lib Lib.LoopReader
open Lib.Utf8 (replaced replacement KeepsCharacters)

/-! ### Replacement characters in lines -/

theorem replaced_cons (c : Char) (text : List Char) :
    replaced (c :: text) = replaced [c] + replaced text :=
  Utf8.replaced_append [c] text

/-- The parts of a text have its replacement characters. -/
theorem sum_replaced_splitOn (text : List Char) :
    ((text.splitOn '\n').map replaced).sum = replaced text := by
  induction text with
  | nil => rfl
  | cons c text ih =>
    have hcons := List.splitOnP_cons_eq_if_modifyHead (p := (· == '\n')) c text
    rw [List.splitOn] at ih ⊢
    rw [hcons, replaced_cons, ← ih]
    split
    · rename_i hnewline
      rw [beq_iff_eq.mp hnewline]
      rfl
    · obtain ⟨part, parts, hparts⟩ := List.exists_cons_of_ne_nil
        (List.splitOnP_ne_nil (· == '\n') text)
      rw [hparts, List.modifyHead_cons, List.map_cons, List.sum_cons, List.map_cons, List.sum_cons,
        replaced_cons, Nat.add_assoc]

/-- Lines that are empty have none. -/
theorem sum_replaced_filter (lines : List (List Char)) :
    ((lines.filter (·.length > 0)).map replaced).sum = (lines.map replaced).sum := by
  induction lines with
  | nil => rfl
  | cons line lines ih =>
    by_cases hline : line.length > 0
    · rw [List.filter_cons_of_pos (by simpa using hline), List.map_cons, List.sum_cons, ih,
        List.map_cons, List.sum_cons]
    · have hempty : line = [] := List.eq_nil_of_length_eq_zero (Nat.eq_zero_of_not_pos hline)
      rw [List.filter_cons_of_neg (by simpa using hempty), ih, hempty, List.map_cons, List.sum_cons]
      exact (Nat.zero_add _).symm

/-- The lines and the tail of a text have its replacement characters. -/
theorem replaced_splitLines (text : List Char) :
    ((splitLines text).2.map replaced).sum + replaced (splitLines text).1 = replaced text := by
  have hne := List.splitOn_ne_nil '\n' text
  have hsum := sum_replaced_splitOn text
  rw [← List.dropLast_append_getLast hne, List.map_append, List.sum_append, List.map_singleton,
    List.sum_singleton] at hsum
  rw [splitLines, sum_replaced_filter, List.getLast?_eq_some_getLast hne, Option.getD_some, hsum]

/-! ### The lines of a stream -/

/-- An SV1 client has read the lines of a stream, and kept its unfinished tail. -/
structure ReadsLines (inputs : List (LoopInput Bytes)) : Prop where
  lines : (receivedMessages (sv1Loops.machine.history { reader := [] } inputs)).map (·.1) =
    (splitLines (Utf8.decode (piecesOf inputs).flatten)).2
  tail : (sv1Loops.machine.final { reader := [] } inputs).reader =
    (splitLines (Utf8.decode (piecesOf inputs).flatten)).1

/-- What an SV1 client reads is what the pieces decode to. -/
theorem splitLines_pieces {inputs : List (LoopInput Bytes)}
    (hopen : (sv1Loops.machine.final { reader := [] } inputs).closed = false) :
    splitLines ((piecesOf inputs).flatMap Utf8.decode) =
      ((sv1Loops.machine.final { reader := [] } inputs).reader,
        (receivedMessages (sv1Loops.machine.history { reader := [] } inputs)).map (·.1)) := by
  have hread := sv1Loops.readAll_of_open [] inputs hopen
  rw [readAll_sv1Loops (by decide), List.nil_append] at hread
  exact Option.some.inj hread

/-- An SV1 client reads the lines of the stream and keeps its tail, however long its handlers take
and until it is closed, if and only if no cut between two pieces falls before a byte that goes on
with a character. While no data overtakes a loop, the lines it reads are those whose handlers were
started, in this order, and then those that wait for their turn. -/
theorem lines_of_stream_iff (inputs : List (LoopInput Bytes))
    (hopen : (sv1Loops.machine.final { reader := [] } inputs).closed = false) :
    (ReadsLines inputs ↔ KeepsCharacters (piecesOf inputs)) ∧
      (sv1Loops.machine.Along sv1Loops.NoOvertaking { reader := [] } [] inputs →
        startedMessages (sv1Loops.machine.history { reader := [] } inputs) ++
            waiting (sv1Loops.machine.final { reader := [] } inputs).loops =
          receivedMessages (sv1Loops.machine.history { reader := [] } inputs)) := by
  refine ⟨⟨fun h => ?_, fun h => ?_⟩, fun hcond => ?_⟩
  · by_contra hcut
    have hlt := Utf8.replaced_lt_of_not_keeps hcut
    have hpieces := replaced_splitLines ((piecesOf inputs).flatMap Utf8.decode)
    have hwhole := replaced_splitLines (Utf8.decode (piecesOf inputs).flatten)
    rw [splitLines_pieces hopen, h.lines, h.tail] at hpieces
    dsimp only at hpieces
    omega
  · have hpieces := splitLines_pieces hopen
    rw [Utf8.decode_flatten_of_keeps h] at hpieces
    exact ⟨(congrArg Prod.snd hpieces).symm, (congrArg Prod.fst hpieces).symm⟩
  · exact (sv1Loops.inv_of_noOvertaking hcond).complete hopen

/-! A submission of a worker whose name has a character of two bytes. -/

/-- The bytes of a message with a worker's name. -/
def namedLine : Bytes :=
  Utf8.encode "\x7b\"id\":1,\"method\":\"mining.authorize\",\"params\":[\"A.ñ\"]\x7d\n".toList

/-- The bytes come in two pieces. The character is at 49. -/
def cutAt (i : ℕ) : List (LoopInput Bytes) :=
  [.data (namedLine.take i), .data (namedLine.drop i), .ends 0]

/-- The cut is right after the character. -/
theorem lines_of_stream_iff_sample :
    (splitLines (Utf8.decode namedLine)).2.length = 1 ∧ ReadsLines (cutAt 51) :=
  ⟨by decide +kernel,
    (lines_of_stream_iff (cutAt 51) (by decide +kernel)).1.mpr (by decide +kernel)⟩

/-- The cut is between the two bytes of the character, and the name that is read has two
replacement characters in its place. -/
theorem not_lines_of_stream :
    ¬ ∀ inputs, (sv1Loops.machine.final { reader := [] } inputs).closed = false →
      ReadsLines inputs := by
  intro h
  exact absurd (h (cutAt 50) (by decide +kernel)).lines (by decide +kernel)

end PublicPool.Proofs
