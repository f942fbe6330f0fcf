import Jozabad.Application10.Chunking
import Jozabad.Lib.Lts

/-!
# The receive buffer (`client.c`)

Each round of the parse loop takes something off the buffer or leaves the loop, and never
takes more than there is. But the loop is not safe on arbitrary bytes. An envelope may be
larger than the buffer, and then the buffer fills up, and the assertion at the next read
fails. The length field may even be so large that the size of the envelope overflows. Then
the envelope is taken for a whole one, and the assertion on its size fails (`Chokes`).

A read that meets no such envelope, by a client with a name for its directionality, is safe,
and only such a read is.
-/

namespace Jozabad
namespace Application10

open Incremental

variable {crc32 : List UInt8 → UInt32} {buf s : List UInt8} {C : JzClientInput} {r : Read}

/-! ### Reads -/

/-- Input from the socket is available. The read begins with the log text. -/
def readInput (crc32 : List UInt8 → UInt32) (r : Read) (C : JzClientInput) :
    Except Fault (List UInt8 × JzClientInput) := do
  assertThat (iodirValidate r.iodir.toNat)
  jzClientInputAvailableCallback crc32 r.bytes C

/-- The input side of a client, under any reads. -/
def inputSystem (crc32 : List UInt8 → UInt32) : Lts JzClientInput Read where
  Init C := C = {}
  Step C r C' := ∃ left, readInput crc32 r C = .ok (left, C')

/-- What is in the buffer after a read of what there is room for. -/
def bufferAfter (C : JzClientInput) (r : Read) : List UInt8 :=
  C.recvBuffer ++ r.bytes.take (CLIENT_RECV_BUFFER_SIZE - C.recvBuffer.length)

/-- The parse loop comes to a point where `s` is left of the buffer. -/
def ParsePosition (crc32 : List UInt8 → UInt32) (buf s : List UInt8) : Prop :=
  Position (parseRound crc32) CLIENT_RECV_BUFFER_SIZE buf s

/-- A round of the loop fails no assertion, does not pass the end of the buffer, and takes
something or leaves the loop. -/
def RoundSafe (crc32 : List UInt8 → UInt32) (s : List UInt8) : Prop :=
  ∃ r, jzBufferParseIntoMessage crc32 s = .ok r ∧ r.siz ≤ s.length ∧
    (0 < r.siz ∨ r.isFatal = true ∨ (r.isError = false ∧ r.siz = 0))

/-- No assertion fails in a read and the parsing after it, every round is safe, and there is
room for more afterwards. -/
def SafeRead (crc32 : List UInt8 → UInt32) (C : JzClientInput) (r : Read) : Prop :=
  (∃ left C', readInput crc32 r C = .ok (left, C') ∧
    C'.recvBuffer.length < CLIENT_RECV_BUFFER_SIZE) ∧
  ∀ s, ParsePosition crc32 (bufferAfter C r) s → s ≠ [] → RoundSafe crc32 s

/-- An envelope with a size that overflows, or one that fills the buffer and is not whole. -/
def Chokes (s : List UInt8) : Prop :=
  12 ≤ s.length ∧ jzBufferBeginsWithSignature s = true ∧
    (2 ^ 32 ≤ envelopeSize (numberAt s 4 4) ∨
      (CLIENT_RECV_BUFFER_SIZE < envelopeSize (numberAt s 4 4) ∧
        CLIENT_RECV_BUFFER_SIZE ≤ s.length))

instance (s : List UInt8) : Decidable (Chokes s) :=
  inferInstanceAs (Decidable (_ ∧ _ ∧ _))

/-- The directionality has a name, and the loop meets no envelope that it chokes on. -/
def Digestible (crc32 : List UInt8 → UInt32) (C : JzClientInput) (r : Read) : Prop :=
  r.Named ∧ ∀ s, ParsePosition crc32 (bufferAfter C r) s → ¬ Chokes s

/-! ### Rounds -/

theorem length_bufferAfter_le (hroom : C.recvBuffer.length < CLIENT_RECV_BUFFER_SIZE)
    (r : Read) : (bufferAfter C r).length ≤ CLIENT_RECV_BUFFER_SIZE := by
  rw [bufferAfter, List.length_append, List.length_take]
  omega

/-- The parser fails only where the size overflows. -/
theorem parse_error {f : Fault} (hne : s ≠ []) (hlen : s.length ≤ CLIENT_RECV_BUFFER_SIZE)
    (h : jzBufferParseIntoMessage crc32 s = .error f) : Chokes s := by
  by_cases hheader : 12 ≤ s.length
  · cases hsig : jzBufferBeginsWithSignature s with
    | false =>
      rw [parse_unsigned hheader hsig] at h
      cases h
    | true =>
      by_cases hpart : s.length < envelopeSize (numberAt s 4 4) % 2 ^ 32
      · rw [parse_cut hheader hsig hpart] at h
        cases h
      · have hwhole : Whole s := ⟨hheader, hsig, not_lt.1 hpart⟩
        by_cases hmax : numberAt s 4 4 ≤ JZ_MSG_MAX_PAYLOAD_LENGTH
        · rw [parse_whole hwhole hmax] at h
          cases h
        · refine ⟨hheader, hsig, .inl (not_lt.1 fun hlt => ?_)⟩
          -- Otherwise the whole envelope would be in the buffer, which is too small for it.
          have hle := hwhole.length_le
          rw [Nat.mod_eq_of_lt hlt] at hle
          change s.length ≤ 1024 at hlen
          change ¬ numberAt s 4 4 ≤ 1032 at hmax
          change 12 + numberAt s 4 4 + _ ≤ s.length at hle
          omega
  · rw [parse_short hne hheader] at h
    cases h

/-- The parser wants more of a full buffer only where the envelope is too large. -/
theorem parse_more (hfull : CLIENT_RECV_BUFFER_SIZE ≤ s.length)
    (h : jzBufferParseIntoMessage crc32 s = .ok {}) : Chokes s := by
  have hheader : 12 ≤ s.length := le_trans (by decide) hfull
  cases hsig : jzBufferBeginsWithSignature s with
  | false =>
    rw [parse_unsigned hheader hsig] at h
    cases h
  | true =>
    by_cases hpart : s.length < envelopeSize (numberAt s 4 4) % 2 ^ 32
    · have hlarge : CLIENT_RECV_BUFFER_SIZE < envelopeSize (numberAt s 4 4) :=
        lt_of_le_of_lt hfull (lt_of_lt_of_le hpart (Nat.mod_le _ _))
      exact ⟨hheader, hsig, .inr ⟨hlarge, hfull⟩⟩
    · have hwhole : Whole s := ⟨hheader, hsig, not_lt.1 hpart⟩
      by_cases hmax : numberAt s 4 4 ≤ JZ_MSG_MAX_PAYLOAD_LENGTH
      · have hsiz := (openEnvelope_bounds crc32 s).1
        rw [parse_whole hwhole hmax] at h
        rw [Except.ok.inj h] at hsiz
        exact absurd hsiz (by decide)
      · rw [parse_oversize hwhole hmax] at h
        cases h

/-- What the parser does with an envelope that it chokes on. -/
theorem Chokes.parse (h : Chokes s) (hlen : s.length ≤ CLIENT_RECV_BUFFER_SIZE) :
    jzBufferParseIntoMessage crc32 s = .error .assertFailed ∨
      (jzBufferParseIntoMessage crc32 s = .ok {} ∧ s.length = CLIENT_RECV_BUFFER_SIZE) := by
  obtain ⟨hheader, hsig, hsize⟩ := h
  by_cases hover : 2 ^ 32 ≤ envelopeSize (numberAt s 4 4)
  · left
    -- What is left of the size is no more than an empty envelope.
    have hlt : numberAt s 4 4 < 2 ^ 32 := numberAt_lt s 4 4
    have hwrap : envelopeSize (numberAt s 4 4) % 2 ^ 32 ≤ 12 := by
      have hsize : envelopeSize (numberAt s 4 4) = 12 + numberAt s 4 4 +
        (if numberAt s 4 4 % 4 ≠ 0 then 4 - numberAt s 4 4 % 4 else 0) := rfl
      rw [hsize] at hover ⊢
      split_ifs at hover ⊢ <;> omega
    have hmax : ¬ numberAt s 4 4 ≤ JZ_MSG_MAX_PAYLOAD_LENGTH := by
      have hbound := envelopeSize_le (numberAt s 4 4)
      change ¬ numberAt s 4 4 ≤ 1032
      omega
    exact parse_oversize ⟨hheader, hsig, le_trans hwrap hheader⟩ hmax
  · obtain hover' | ⟨hlarge, hfull⟩ := hsize
    · exact absurd hover' hover
    · refine .inr ⟨parse_cut hheader hsig ?_, le_antisymm hlen hfull⟩
      rw [Nat.mod_eq_of_lt (not_le.1 hover)]
      exact lt_of_le_of_lt hlen hlarge

/-! ### One read -/

/-- Where nothing chokes the loop, its rounds are safe. -/
theorem roundSafe_of_not_chokes (hne : s ≠ []) (hlen : s.length ≤ CLIENT_RECV_BUFFER_SIZE)
    (h : ¬ Chokes s) : RoundSafe crc32 s := by
  cases hparse : jzBufferParseIntoMessage crc32 s with
  | error f => exact absurd (parse_error hne hlen hparse) h
  | ok r =>
    obtain ⟨hle, rfl | rfl | ⟨hpos, -⟩⟩ := parse_bounds hne hparse
    · exact ⟨_, hparse, hle, .inr (.inr ⟨rfl, rfl⟩)⟩
    · exact ⟨_, hparse, hle, .inr (.inl rfl)⟩
    · exact ⟨r, hparse, hle, .inl hpos⟩

theorem readInput_named (hnamed : r.Named) :
    readInput crc32 r C = jzClientInputAvailableCallback crc32 r.bytes C := by
  have hassert : assertThat (iodirValidate r.iodir.toNat) = .ok () := by rw [hnamed]; rfl
  rw [readInput, hassert]
  rfl

theorem named_of_readInput {left : List UInt8} {C' : JzClientInput}
    (h : readInput crc32 r C = .ok (left, C')) : r.Named := by
  obtain ⟨_, hassert, -⟩ := bind_eq_ok h
  exact eq_true_of_assertThat hassert

/-- A read that succeeds leaves the outcome of the parse loop. -/
theorem readInput_ok (hroom : C.recvBuffer.length < CLIENT_RECV_BUFFER_SIZE) {left : List UInt8}
    {C' : JzClientInput} (h : readInput crc32 r C = .ok (left, C')) :
    C.after (decoded crc32 (bufferAfter C r)) = .ok C' := by
  rw [readInput_named (named_of_readInput h), callback_eq hroom] at h
  change (_ <$> C.after (decoded crc32 (bufferAfter C r))) = _ at h
  cases hafter : C.after (decoded crc32 (bufferAfter C r)) with
  | error f =>
    rw [hafter] at h
    cases h
  | ok C₁ =>
    rw [hafter] at h
    cases h
    rfl

/-- The end of the loop, where nothing chokes it: the buffer has room for more. -/
theorem after_decoded_room (hlen : buf.length ≤ CLIENT_RECV_BUFFER_SIZE)
    (h : ∀ s, ParsePosition crc32 buf s → ¬ Chokes s) :
    ∃ C', C.after (decoded crc32 buf) = .ok C' ∧
      C'.recvBuffer.length < CLIENT_RECV_BUFFER_SIZE := by
  have hstable := parseRound_stable crc32
  obtain ⟨s, hposition, hlast⟩ := exists_last hstable recvBuffer_pos buf
  have hresult : (decoded crc32 buf).result = (decoded crc32 s).result :=
    hposition.result_eq hstable recvBuffer_pos
  have hslen : s.length ≤ CLIENT_RECV_BUFFER_SIZE := le_trans hposition.suffix.length_le hlen
  have htake : s.take CLIENT_RECV_BUFFER_SIZE = s := List.take_of_length_le hslen
  rw [htake] at hlast
  have hok (rest : List UInt8) (hrest : (decoded crc32 s).result = .ok rest)
      (hlt : rest.length < CLIENT_RECV_BUFFER_SIZE) : ∃ C', C.after (decoded crc32 buf) = .ok C' ∧
        C'.recvBuffer.length < CLIENT_RECV_BUFFER_SIZE := by
    unfold JzClientInput.after
    rw [hresult, hrest]
    exact ⟨_, rfl, hlt⟩
  by_cases hs : s = []
  · exact hok [] (by rw [hs]; rfl) recvBuffer_pos
  obtain ⟨hparse, hround⟩ | ⟨hparse, hround⟩ | ⟨f, hparse, hround⟩ | ⟨r, -, -, -, -, hround⟩ :=
    parseRound_cases crc32 hs
  · -- The loop waits, and the buffer is not full.
    refine hok s ?_ (not_le.1 fun hfull => h s hposition (parse_more hfull hparse))
    rw [decoded, decode_more hs (by rw [htake, hround]), if_pos hslen]
  · have herror : (decoded crc32 s).result = .error .fatal := by
      rw [decoded, decode_halt hs (by rw [htake, hround])]
    unfold JzClientInput.after
    rw [hresult, herror]
    exact ⟨_, rfl, recvBuffer_pos⟩
  · exact absurd (parse_error hs hslen hparse) (h s hposition)
  · obtain hnil | hmore | ⟨t, ht⟩ := hlast
    · exact absurd hnil hs
    · cases hround.symm.trans hmore
    · cases hround.symm.trans ht

/-- A loop that meets an envelope that it chokes on stops the program or leaves a full
buffer. -/
theorem Chokes.not_room (h : Chokes s) (hposition : ParsePosition crc32 buf s)
    (hlen : buf.length ≤ CLIENT_RECV_BUFFER_SIZE) {C' : JzClientInput}
    (hafter : C.after (decoded crc32 buf) = .ok C') :
    CLIENT_RECV_BUFFER_SIZE ≤ C'.recvBuffer.length := by
  have hresult : (decoded crc32 buf).result = (decoded crc32 s).result :=
    hposition.result_eq (parseRound_stable crc32) recvBuffer_pos
  have hslen : s.length ≤ CLIENT_RECV_BUFFER_SIZE := le_trans hposition.suffix.length_le hlen
  have htake : s.take CLIENT_RECV_BUFFER_SIZE = s := List.take_of_length_le hslen
  have hs : s ≠ [] := List.ne_nil_of_length_pos (lt_of_lt_of_le (by decide) h.1)
  unfold JzClientInput.after at hafter
  obtain hparse | ⟨hparse, hfull⟩ : jzBufferParseIntoMessage crc32 s = .error .assertFailed ∨
      (jzBufferParseIntoMessage crc32 s = .ok {} ∧ s.length = CLIENT_RECV_BUFFER_SIZE) :=
    h.parse hslen
  · have hround : parseRound crc32 s = .halt (.failed .assertFailed) := by
      rw [parseRound, hparse]
    have herror : (decoded crc32 s).result = .error (.failed .assertFailed) := by
      rw [decoded, decode_halt hs (by rw [htake, hround])]
    rw [hresult, herror] at hafter
    cases hafter
  · have hround : parseRound crc32 s = .more := by
      rw [parseRound, hparse]
      rfl
    have hok : (decoded crc32 s).result = .ok s := by
      rw [decoded, decode_more hs (by rw [htake, hround]), if_pos hslen]
    rw [hresult, hok] at hafter
    cases hafter
    exact hfull.ge

/-- **A read is safe exactly where it can be digested**, if there is room for it. -/
theorem safeRead_iff (hroom : C.recvBuffer.length < CLIENT_RECV_BUFFER_SIZE) :
    SafeRead crc32 C r ↔ Digestible crc32 C r := by
  have hlen := length_bufferAfter_le hroom r
  constructor
  · rintro ⟨⟨left, C', hread, hroom'⟩, -⟩
    refine ⟨named_of_readInput hread, fun s hposition hchokes => ?_⟩
    exact absurd (hchokes.not_room hposition hlen (readInput_ok hroom hread)) (not_le.2 hroom')
  · rintro ⟨hnamed, hchokes⟩
    obtain ⟨C', hafter, hroom'⟩ := after_decoded_room (C := C) hlen hchokes
    refine ⟨⟨r.bytes.drop (CLIENT_RECV_BUFFER_SIZE - C.recvBuffer.length), C', ?_, hroom'⟩,
      fun s hposition hne => ?_⟩
    · rw [readInput_named hnamed, callback_eq hroom]
      change _ <$> C.after (decoded crc32 (bufferAfter C r)) = _
      rw [hafter]
      rfl
    · exact roundSafe_of_not_chokes hne (le_trans hposition.suffix.length_le hlen)
        (hchokes s hposition)

/-! ### Runs -/

/-- Reads that can be digested leave room for the next one. -/
theorem room_of_reachable
    (h : ((inputSystem crc32).restrict (Digestible crc32)).Reachable C) :
    C.recvBuffer.length < CLIENT_RECV_BUFFER_SIZE := by
  refine Lts.Reachable.invariant (fun C => C.recvBuffer.length < CLIENT_RECV_BUFFER_SIZE)
    ?_ ?_ h
  · rintro _ rfl
    exact recvBuffer_pos
  · rintro C r C' - hroom ⟨hdigestible, left, hread⟩
    obtain ⟨⟨left', C₁, hread', hroom'⟩, -⟩ := (safeRead_iff hroom).2 hdigestible
    obtain ⟨-, rfl⟩ := Prod.mk.inj (Except.ok.inj (hread'.symm.trans hread))
    exact hroom'

/-- **The framing is safe on what it can digest.** In every run of reads that can be digested
the receive buffer has room for at least one more byte, and the next read, whatever it is, is
safe if and only if it can be digested. -/
theorem framing_safe (h : ((inputSystem crc32).restrict (Digestible crc32)).Reachable C) :
    C.recvBuffer.length < CLIENT_RECV_BUFFER_SIZE ∧
      ∀ r, SafeRead crc32 C r ↔ Digestible crc32 C r :=
  ⟨room_of_reachable h, fun _ => safeRead_iff (room_of_reachable h)⟩

/-- A client that has received the first byte of an envelope. -/
theorem framing_safe_first_byte :
    ({ recvBuffer := [0x43] } : JzClientInput).recvBuffer.length < CLIENT_RECV_BUFFER_SIZE ∧
      ∀ r, SafeRead digitalCrc32 { recvBuffer := [0x43] } r ↔
        Digestible digitalCrc32 { recvBuffer := [0x43] } r := by
  have hdigestible : Digestible digitalCrc32 {} ⟨3, [0x43]⟩ :=
    ⟨rfl, fun s hposition hchokes =>
      absurd (le_trans hchokes.1 hposition.suffix.length_le) (by decide)⟩
  exact framing_safe (.step (.init rfl) ⟨hdigestible, [], rfl⟩)

/-- Three reads of a new client that are not safe: one whose directionality has no name, one
with an envelope whose size overflows, and one with an envelope of 1036 bytes that fills the
buffer. -/
theorem unsafe_reads : ¬ SafeRead digitalCrc32 {} ⟨9, [0x43]⟩ ∧
    ¬ SafeRead digitalCrc32 {} ⟨3, [0x43, 0x56, 0x53, 0x7e, 0xff, 0xff, 0xff, 0xff, 0, 0, 0, 0]⟩ ∧
    ¬ SafeRead digitalCrc32 {}
      ⟨3, [0x43, 0x56, 0x53, 0x7e, 0, 0, 4, 0] ++ List.replicate 1016 0⟩ := by
  have hiff (r : Read) : SafeRead digitalCrc32 {} r ↔ Digestible digitalCrc32 {} r :=
    safeRead_iff recvBuffer_pos
  refine ⟨fun h => absurd ((hiff _).1 h).1 (by decide),
    fun h => ((hiff _).1 h).2 _ (.here _) (by decide),
    fun h => ((hiff _).1 h).2 _ (.here _) (by decide +kernel)⟩

end Application10
end Jozabad
