import PublicPool.Proofs.Sv2.FrameStream
import PublicPool.SocketData

/-!
# `PublicPool.Proofs.MessageOrder`: the order in which messages are handled

`messages_in_order`: an SV1 or SV2 client starts the handlers of its messages in the order of
the messages if and only if no data event completes a message while the loop of an earlier one
still has messages to start. The condition is about the cut of the stream and the time the
handlers take, and the client controls neither.

The library's rules say this for any reader. What is left here is that the messages are those of
the stream: the lines of an SV1 client do not depend on the cut (`splitLines_append`), and those
of an SV2 client are what its frame reader makes of the pieces.
-/

set_option autoImplicit false

namespace PublicPool.Proofs

open Lib Lib.LoopReader

/-! ### Lines -/

/-- The part after the last newline is the only one that later characters can change. -/
theorem splitOn_append {α : Type*} [DecidableEq α] (a : α) (xs ys : List α) :
    (xs ++ ys).splitOn a =
      (xs.splitOn a).dropLast ++ ((xs.splitOn a).getLast (List.splitOn_ne_nil a xs) ++ ys).splitOn a
      := by
  induction hn : xs.length using Nat.strongRecOn generalizing xs with
  | ind n ih =>
    subst hn
    by_cases hmem : a ∈ xs
    · obtain ⟨first, rest, rfl, hfirst⟩ := List.eq_append_cons_of_mem hmem
      have hlen : rest.length < (first ++ a :: rest).length := by
        rw [List.length_append, List.length_cons]
        omega
      have hsplit (zs : List α) : (first ++ a :: zs).splitOn a = first :: zs.splitOn a :=
        List.splitOn_append_cons_self_of_not_mem hfirst zs
      have hne : rest.splitOn a ≠ [] := List.splitOn_ne_nil a rest
      simp only [List.append_assoc, List.cons_append, hsplit, List.dropLast_cons_of_ne_nil hne,
        List.getLast_cons hne, ih _ hlen rest rfl]
    · simp only [List.splitOn_eq_singleton hmem, List.dropLast_singleton, List.getLast_singleton,
        List.nil_append]

/-- Lines are split off in the same way, however the text is cut. -/
theorem splitLines_append (text more : List Char) :
    splitLines (text ++ more) =
      ((splitLines ((splitLines text).1 ++ more)).1,
        (splitLines text).2 ++ (splitLines ((splitLines text).1 ++ more)).2) := by
  have hlast : (splitLines text).1 =
      (text.splitOn '\n').getLast (List.splitOn_ne_nil _ text) := by
    rw [splitLines, List.getLast?_eq_some_getLast (List.splitOn_ne_nil _ text)]
    rfl
  have hne : ((splitLines text).1 ++ more).splitOn '\n' ≠ [] :=
    List.splitOn_ne_nil _ _
  have happend := splitOn_append '\n' text more
  rw [← hlast] at happend
  generalize (splitLines text).1 ++ more = after at hne happend ⊢
  simp only [splitLines, happend, List.getLast?_append_of_ne_nil _ hne,
    List.dropLast_append_of_ne_nil hne, List.filter_append]

/-- What stays in the buffer has no complete line. -/
theorem splitLines_buffer (text : List Char) :
    splitLines (splitLines text).1 = ((splitLines text).1, []) := by
  have hagain := splitLines_append text []
  rw [List.append_nil, List.append_nil] at hagain
  obtain ⟨hbuffer, hlines⟩ := Prod.ext_iff.mp hagain
  exact Prod.ext hbuffer.symm (List.append_right_eq_self.mp hlines.symm)

/-- The lines of some pieces are those of their text. -/
theorem readAll_sv1Loops {buffer : List Char} (hbuffer : splitLines buffer = (buffer, []))
    (pieces : List Bytes) :
    sv1Loops.readAll buffer pieces = some (splitLines (buffer ++ pieces.flatMap Utf8.decode)) := by
  induction pieces generalizing buffer with
  | nil =>
    rw [List.flatMap_nil, List.append_nil, hbuffer]
    rfl
  | cons piece pieces ih =>
    have hrest := ih (splitLines_buffer (buffer ++ Utf8.decode piece))
    rw [List.flatMap_cons, ← List.append_assoc, splitLines_append]
    exact Option.bind_eq_some_iff.mpr ⟨_, hrest, rfl⟩

/-- The frames of some pieces are those the reader gives. -/
theorem readAll_sv2Loops {τ : Type} (reader : Sv2.Sv2FrameReader τ) (pieces : List Bytes) :
    (sv2Loops τ).readAll reader pieces = reader.feedAll pieces := by
  induction pieces generalizing reader with
  | nil => rfl
  | cons piece pieces ih =>
    rw [LoopReader.readAll, Sv2.Sv2FrameReader.feedAll]
    show (reader.feed piece).bind _ = (reader.feed piece).bind _
    simp only [ih]

/-! ### Order -/

/-- A reader's connection keeps the order of its messages in a run exactly as long as no data
overtakes a loop, and the handlers do not mix as long as data waits for the loops. -/
def OrderedExactly {ρ δ μ : Type} (r : LoopReader ρ δ μ) (reader : ρ)
    (inputs : List (LoopInput δ)) : Prop :=
  (InOrder (r.machine.history { reader } inputs) ↔
    r.machine.Along r.NoOvertaking { reader } [] inputs) ∧
  (r.machine.Along r.OneLoop { reader } [] inputs →
    (sectionsOf (r.machine.history { reader } inputs)).Pairwise
      fun earlier later => earlier.2 ≤ later.2)

theorem orderedExactly {ρ δ μ : Type} (r : LoopReader ρ δ μ) (reader : ρ)
    (inputs : List (LoopInput δ)) : OrderedExactly r reader inputs :=
  ⟨r.inOrder_iff reader inputs, r.sections_sorted⟩

/-- The handlers of an SV1 and of an SV2 client are started in the order of the messages if and
only if no data event completes a message while the loop of an earlier one has messages to
start. The messages are the lines and the frames of what the connection has received. -/
theorem messages_in_order {τ : Type} (reader : Sv2.Sv2FrameReader τ)
    (inputs : List (LoopInput Bytes)) :
    (OrderedExactly sv1Loops [] inputs ∧
      ((sv1Loops.machine.final { reader := [] } inputs).closed = false →
        (receivedMessages (sv1Loops.machine.history { reader := [] } inputs)).map (·.1) =
          (splitLines ((piecesOf inputs).flatMap Utf8.decode)).2)) ∧
    (OrderedExactly (sv2Loops τ) reader inputs ∧
      (((sv2Loops τ).machine.final { reader } inputs).closed = false →
        (reader.feedAll (piecesOf inputs)).map (·.2) =
          some ((receivedMessages ((sv2Loops τ).machine.history { reader } inputs)).map
            (·.1)))) := by
  constructor
  · refine ⟨orderedExactly _ _ _, fun hopen => ?_⟩
    have hread := sv1Loops.readAll_of_open [] inputs hopen
    rw [readAll_sv1Loops (by decide), List.nil_append] at hread
    exact (congrArg Prod.snd (Option.some.inj hread)).symm
  · refine ⟨orderedExactly _ _ _, fun hopen => ?_⟩
    have hread := (sv2Loops τ).readAll_of_open reader inputs hopen
    rw [readAll_sv2Loops] at hread
    rw [hread]
    rfl

/-- A line with the method of a message. -/
def methodLine (method : String) : Bytes :=
  Utf8.encode ("\x7b\"id\":1,\"method\":\"" ++ method ++ "\",\"params\":[]\x7d\n").toList

/-- Two messages that come together. -/
def submitThenPayout : Bytes := methodLine "mining.submit" ++ methodLine "mining.set_payout"

/-- The next message comes when the loop has started the second one. -/
def patient : List (LoopInput Bytes) :=
  [.data submitThenPayout, .ends 0, .turn 0, .data (methodLine "mining.set_payout"), .ends 0]

theorem messages_in_order_sample :
    InOrder (sv1Loops.machine.history { reader := [] } patient) :=
  (messages_in_order (Sv2.Sv2FrameReader.new none ()) patient).1.1.1.mpr (by decide +kernel)

/-- The next message comes while the first one is handled. -/
def hasty : List (LoopInput Bytes) :=
  [.data submitThenPayout, .data (methodLine "mining.set_payout")]

theorem feedAll_singleton {τ : Type} (reader : Sv2.Sv2FrameReader τ) (data : Bytes) :
    reader.feedAll [data] = reader.feed data := by
  rw [Sv2.Sv2FrameReader.feedAll]
  cases reader.feed data with
  | none => rfl
  | some read =>
    show some (read.1, read.2 ++ []) = some read
    rw [List.append_nil]

/-- Two frames and a frame, with the cipher of the frame tests. -/
theorem not_inOrder_sv2 :
    ¬ ∀ (τ : Type) (reader : Sv2.Sv2FrameReader τ) (inputs : List (LoopInput Bytes)),
      InOrder ((sv2Loops τ).machine.history { reader } inputs) := by
  intro hall
  let share : Sv2.Sv2Frame :=
    ⟨⟨⟨0x8000, 0x1a, 1⟩, [1]⟩, by decide, by decide, by decide, rfl⟩
  obtain ⟨wire₁, s₁, t₁, -, hsynced, hread₁⟩ :=
    @Sv2.feedAll_encrypted ℕ ℕ _ _ _ Sv2.mock_ordered 0 0 rfl [share, share]
  obtain ⟨wire₂, s₂, t₂, -, -, hread₂⟩ :=
    Sv2.feedAll_encrypted Sv2.mock_ordered hsynced [share]
  have hfeed₁ := hread₁ [wire₁] (by simp)
  have hfeed₂ := hread₂ [wire₂] (by simp)
  rw [feedAll_singleton] at hfeed₁ hfeed₂
  have hkept := (sv2Loops ℕ).inOrder_iff (.new (some Sv2.mockDecrypt) 0)
    [.data wire₁, .data wire₂] |>.mp (hall _ _ _)
  have hstep : (sv2Loops ℕ).machine.step { reader := .new (some Sv2.mockDecrypt) 0 }
      (.data wire₁) =
      ({ reader := .new (some Sv2.mockDecrypt) t₁, count := 2
         loops := [{ current := (share.toParsedFrame, 0), rest := [(share.toParsedFrame, 1)] }] },
        [.received (share.toParsedFrame, 0), .received (share.toParsedFrame, 1),
          .started (share.toParsedFrame, 0)]) := by
    change (sv2Loops ℕ).receive { reader := .new (some Sv2.mockDecrypt) 0 } wire₁ = _
    rw [receive, if_neg Bool.false_ne_true, show (sv2Loops ℕ).read _ wire₁ = _ from hfeed₁]
    rfl
  have hsecond := hkept.2.1
  rw [hstep] at hsecond
  obtain hclosed | hnone | hrest := hsecond
  · cases hclosed
  · rw [completes, show (sv2Loops ℕ).read _ wire₂ = _ from hfeed₂] at hnone
    cases hnone
  · cases hrest _ List.mem_cons_self

/-- A message that completes while a loop has others to start is handled before them. -/
theorem not_messages_in_order :
    (¬ ∀ inputs, InOrder (sv1Loops.machine.history { reader := [] } inputs)) ∧
    ¬ ∀ (τ : Type) (reader : Sv2.Sv2FrameReader τ) (inputs : List (LoopInput Bytes)),
      InOrder ((sv2Loops τ).machine.history { reader } inputs) := by
  refine ⟨fun hall => ?_, not_inOrder_sv2⟩
  exact absurd ((sv1Loops.inOrder_iff [] hasty).mp (hall hasty)) (by decide +kernel)

end PublicPool.Proofs
