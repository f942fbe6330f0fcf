import Jozabad.Application10.Admission

/-!
# What the parser finds (`msg.c`)

The parser looks at the front of the receive buffer. It wants more, or the buffer does not
begin with an envelope, or there is a whole envelope, which is opened (`parse_short`,
`parse_unsigned`, `parse_cut`, `parse_whole`). The size of an envelope is computed with
32 bits. A length field close to `2 ^ 32` passes for that of a whole envelope, and the
assertion on it fails (`parse_oversize`).

The parser runs on whatever prefix of a stream is in the buffer. Unless it wants more, it
finds the same in any longer buffer (`parse_append`).
-/

namespace Jozabad
namespace Application10

variable {crc32 : List UInt8 → UInt32} {buf : List UInt8}

/-! ### The questions of the parser -/

/-- The envelope at the front of a buffer is whole. -/
structure Whole (buf : List UInt8) : Prop where
  header : 12 ≤ buf.length
  signature : jzBufferBeginsWithSignature buf = true
  length_le : (envelopeSize (numberAt buf 4 4)) % 2 ^ 32 ≤ buf.length

theorem beginsWithSignature_append (h : 12 ≤ buf.length) (rest : List UInt8) :
    jzBufferBeginsWithSignature (buf ++ rest) = jzBufferBeginsWithSignature buf := by
  have hbuf : ¬ buf.length < JZ_MSG_ENVELOPE_SIGNATURE_SIZE := by
    change ¬ buf.length < 4
    omega
  have happ : ¬ (buf ++ rest).length < JZ_MSG_ENVELOPE_SIGNATURE_SIZE := by
    rw [List.length_append]
    omega
  unfold jzBufferBeginsWithSignature
  rw [numberAt_of_le (by omega) rest]
  simp only [hbuf, happ]

theorem msgBodyLength_eq (h : 12 ≤ buf.length) :
    jzBufferMsgBodyLength buf = .ok (numberAt buf 4 4) := by
  have hlen : buf.length ≥ JZ_MSG_ENVELOPE_HEADER_SIZE := by
    change 8 ≤ buf.length
    omega
  rw [jzBufferMsgBodyLength, decide_eq_true hlen]
  rfl

theorem msgLcn_eq (h : 12 ≤ buf.length) : jzBufferMsgLcn buf = .ok (numberAt buf 10 2) := by
  have hlen : buf.length ≥ JZ_MSG_ENVELOPE_HEADER_SIZE + JZ_MSG_PAYLOAD_HEADER_SIZE := h
  rw [jzBufferMsgLcn, decide_eq_true hlen]
  rfl

theorem containsAMessage_eq (h : 12 ≤ buf.length)
    (hsig : jzBufferBeginsWithSignature buf = true) : jzBufferContainsAMessage buf =
      .ok (¬ buf.length < envelopeSize (numberAt buf 4 4) % 2 ^ 32 : Bool) := by
  have hlen : ¬ buf.length < JZ_MSG_ENVELOPE_SIZE := not_lt.2 h
  rw [jzBufferContainsAMessage, if_neg hlen, hsig, if_neg (not_not.2 rfl), msgBodyLength_eq h]
  rfl

/-- A buffer with a whole envelope is one that the parser finds a message in. -/
theorem Whole.contains (h : Whole buf) : jzBufferContainsAMessage buf = .ok true := by
  rw [containsAMessage_eq h.header h.signature]
  exact congrArg Except.ok (decide_eq_true (not_lt.2 h.length_le))

theorem Whole.append (h : Whole buf) (rest : List UInt8) : Whole (buf ++ rest) where
  header := by
    have := h.header
    rw [List.length_append]
    omega
  signature := (beginsWithSignature_append h.header rest).trans h.signature
  length_le := by
    have := h.header
    rw [numberAt_of_le (by omega) rest, List.length_append]
    exact le_trans h.length_le (Nat.le_add_right _ _)

theorem envelopeSize_le (n : ℕ) : envelopeSize n ≤ n + 15 := by
  change 12 + n + (if n % 4 ≠ 0 then 4 - n % 4 else 0) ≤ n + 15
  split_ifs <;> omega

/-- A length that the parser allows does not overflow, so that the whole envelope is in
the buffer. -/
theorem Whole.fits (h : Whole buf) (hmax : numberAt buf 4 4 ≤ JZ_MSG_MAX_PAYLOAD_LENGTH) :
    envelopeSize (numberAt buf 4 4) ≤ buf.length := by
  have hlt : envelopeSize (numberAt buf 4 4) < 2 ^ 32 := by
    have := envelopeSize_le (numberAt buf 4 4)
    change _ ≤ 1032 at hmax
    omega
  have hle := h.length_le
  rwa [Nat.mod_eq_of_lt hlt] at hle

theorem msgBinarySize_eq (h : Whole buf) : jzBufferMsgBinarySize buf =
    (assertThat (numberAt buf 4 4 ≤ JZ_MSG_MAX_PAYLOAD_LENGTH) >>= fun _ =>
      .ok (envelopeSize (numberAt buf 4 4))) := by
  have hlen : buf.length ≥ JZ_MSG_ENVELOPE_SIZE := h.header
  rw [jzBufferMsgBinarySize, decide_eq_true hlen, h.signature, msgBodyLength_eq h.header]
  rfl

/-- The checksum that an envelope carries is that of its body. -/
def CrcMatches (crc32 : List UInt8 → UInt32) (buf : List UInt8) : Prop :=
  numberAt buf (8 + numberAt buf 4 4 + JZ_MSG_PADDING_LENGTH (numberAt buf 4 4)) 4 =
    (crc32 (bytesAt buf 8 (numberAt buf 4 4))).toNat

instance (crc32 : List UInt8 → UInt32) (buf : List UInt8) : Decidable (CrcMatches crc32 buf) :=
  inferInstanceAs (Decidable (_ = _))

theorem envelopeIsValid_eq (h : Whole buf) : jzBufferMsgEnvelopeIsValid crc32 buf =
    .ok (decide (numberAt buf 4 4 ≤ JZ_MSG_MAX_PAYLOAD_LENGTH ∧ CrcMatches crc32 buf)) := by
  have hlen : ¬ buf.length < JZ_MSG_ENVELOPE_SIZE := not_lt.2 h.header
  rw [jzBufferMsgEnvelopeIsValid, if_neg hlen, h.signature, if_neg (not_not.2 rfl),
    msgBodyLength_eq h.header]
  change (if numberAt buf 4 4 > JZ_MSG_MAX_PAYLOAD_LENGTH then _ else if _ then _ else _) = _
  by_cases hmax : numberAt buf 4 4 ≤ JZ_MSG_MAX_PAYLOAD_LENGTH
  · have hend : ¬ buf.length < JZ_MSG_ENVELOPE_HEADER_SIZE + numberAt buf 4 4 +
        JZ_MSG_PADDING_LENGTH (numberAt buf 4 4) + 4 := by
      have hfits := h.fits hmax
      change 12 + _ + _ ≤ _ at hfits
      change ¬ buf.length < 8 + _ + _ + 4
      omega
    rw [if_neg (not_lt.2 hmax), if_neg hend]
    refine congrArg Except.ok (decide_eq_decide.2 ?_)
    exact (and_iff_right hmax).symm
  · rw [if_pos (not_le.1 hmax)]
    exact congrArg Except.ok (decide_eq_false fun h => hmax h.1).symm

/-! ### What the decoder takes -/

theorem shrinks_getNumber1 : getNumber1.Shrinks :=
  (shrinks_getNumber Diag.packetTooShort 1).bind fun _ => Reader.Shrinks.pure _

theorem shrinks_getNumber2 : getNumber2.Shrinks :=
  (shrinks_getNumber Diag.packetTooShort 2).bind fun _ => Reader.Shrinks.pure _

theorem shrinks_getString : getString.Shrinks :=
  (shrinks_getNumber Diag.packetTooShort 1).bind fun n =>
    (shrinks_getBytes Diag.packetTooShort n).bind fun _ => Reader.Shrinks.pure _

theorem shrinks_getRaw : getRaw.Shrinks := by
  refine (shrinks_getNumber Diag.packetTooShort 2).bind fun n => ?_
  intro input
  change (if input.length < n then (Except.error Diag.packetTooShort, input) else
    if n > RAW_MAX then (Except.error Diag.ok, input) else
      (Except.ok (input.take n), input.drop n)).2.length ≤ input.length
  split_ifs
  · exact le_rfl
  · exact le_rfl
  · rw [List.length_drop]
    exact Nat.sub_le _ _

theorem shrinks_getPadding (n : ℕ) : (getPadding n).Shrinks := by
  induction n with
  | zero => exact Reader.Shrinks.pure _
  | succ n ih => exact shrinks_getNumber1.bind fun _ => ih

theorem shrinks_getFields (version : UInt8) (id : MsgId) (lcn : UInt16) :
    (getFields version id lcn).Shrinks := by
  have hend (m : JzMsg) : Reader.Shrinks (pure m : Reader Diag JzMsg) := Reader.Shrinks.pure m
  cases id with
  | data =>
    exact shrinks_getNumber1.bind fun _ => shrinks_getNumber2.bind fun _ =>
      shrinks_getNumber2.bind fun _ => shrinks_getRaw.bind fun _ => hend _
  | rr | rnr => exact shrinks_getNumber2.bind fun _ => hend _
  | callRequest | callAccepted =>
    exact shrinks_getString.bind fun _ => shrinks_getString.bind fun _ =>
      shrinks_getNumber1.bind fun _ => shrinks_getNumber2.bind fun _ =>
        shrinks_getNumber1.bind fun _ => shrinks_getRaw.bind fun _ => hend _
  | clearRequest | resetRequest | restartRequest =>
    exact shrinks_getNumber1.bind fun _ => shrinks_getNumber1.bind fun _ => hend _
  | connect => exact shrinks_getString.bind fun _ => shrinks_getNumber1.bind fun _ => hend _
  | diagnostic =>
    exact shrinks_getNumber1.bind fun _ => shrinks_getNumber1.bind fun _ =>
      shrinks_getNumber1.bind fun _ => shrinks_getNumber2.bind fun _ => hend _
  -- These have no fields.
  | clearConfirmation | resetConfirmation | restartConfirmation | connectIndication | disconnect
    | disconnectIndication | directoryRequest | directory | enq | ack => exact hend _

theorem shrinks_getTail (version id : UInt8) (lcn : UInt16) (padding : ℕ) :
    (getTail version id lcn padding).Shrinks := by
  unfold getTail
  by_cases hversion : version = 1
  · rw [if_neg (not_not.2 hversion)]
    cases MsgId.ofCode id.toNat with
    | none => exact Reader.Shrinks.throw _
    | some id =>
      exact (shrinks_getFields version id lcn).bind fun _ => (shrinks_getPadding padding).bind
        fun _ => (shrinks_getNumber Diag.packetTooShort 4).bind fun _ => Reader.Shrinks.pure _
  · rw [if_pos hversion]
    exact Reader.Shrinks.throw _

/-- The decoder takes the header at least, and no more than the envelope. -/
theorem unpack_bounds (version id : UInt8) (lcn : UInt16) (padding : ℕ) {ceiling : ℕ}
    {tail : List UInt8} (h : tail.length + 12 ≤ ceiling) :
    12 ≤ (unpack version id lcn padding ceiling tail).packedSize ∧
      (unpack version id lcn padding ceiling tail).packedSize ≤ ceiling := by
  have hshrinks := shrinks_getTail version id lcn padding tail
  unfold unpack
  cases hread : (getTail version id lcn padding).on tail with
  | mk self left =>
    have hleft : left.length ≤ tail.length := by rwa [hread] at hshrinks
    have hsize : 12 ≤ ceiling - left.length := by omega
    cases self <;> exact ⟨hsize, Nat.sub_le _ _⟩

/-! ### What the parser finds -/

/-- The decoder's result for the envelope at the front of a buffer. -/
def unpackFront (buf : List UInt8) : Unpacked :=
  unpack (UInt8.ofNat (numberAt buf 8 1)) (UInt8.ofNat (numberAt buf 9 1))
    (UInt16.ofNat (numberAt buf 10 2)) (JZ_MSG_PADDING_LENGTH (numberAt buf 4 4))
    (envelopeSize (numberAt buf 4 4)) (bytesAt buf 12 (envelopeSize (numberAt buf 4 4) - 12))

/-- What the parser makes of what the decoder returns. -/
def Unpacked.parsed (u : Unpacked) : Parsed :=
  match u.self with
  | .ok self => { siz := u.packedSize, msg := some self }
  | .error invalidity =>
    { siz := u.packedSize
      msg := some (jzMsgNewDiagnostic invalidity.code u.version u.id u.lcn), isError := true }

theorem Unpacked.parsed_siz (u : Unpacked) : u.parsed.siz = u.packedSize := by
  unfold Unpacked.parsed
  cases u.self <;> rfl

/-- What the parser makes of a whole envelope with a length that it allows. -/
def openEnvelope (crc32 : List UInt8 → UInt32) (buf : List UInt8) : Parsed :=
  let bad (diagnostic : JzMsg) : Parsed :=
    { siz := envelopeSize (numberAt buf 4 4), msg := some diagnostic, isError := true }
  if ¬ CrcMatches crc32 buf then
    bad (jzMsgNewDiagnostic Diag.invalidEnvelope.code 0 0 0)
  else if numberAt buf 4 4 < JZ_MSG_PAYLOAD_HEADER_SIZE then
    bad (jzMsgNewDiagnostic Diag.packetTooShort.code 0 0 0)
  else if numberAt buf 10 2 > JZ_MSG_MAX_LCN then
    bad (jzMsgNewDiagnostic Diag.packetOnUnassignedLogicalChannel.code 0 0 0)
  else
    (unpackFront buf).parsed

theorem newFromData_eq (h : Whole buf) (hmax : numberAt buf 4 4 ≤ JZ_MSG_MAX_PAYLOAD_LENGTH)
    (hmin : ¬ numberAt buf 4 4 < JZ_MSG_PAYLOAD_HEADER_SIZE) :
    jzMsgNewFromData buf = .ok (unpackFront buf) := by
  have hfits := h.fits hmax
  have hsize : JZ_MSG_ENVELOPE_SIZE < buf.length := by
    refine lt_of_lt_of_le ?_ hfits
    change ¬ numberAt buf 4 4 < 4 at hmin
    change 12 < 12 + numberAt buf 4 4 + _
    omega
  have hsig : numberAt buf 0 4 = JZ_MSG_SIGNATURE := (of_decide_eq_true h.signature).2
  rw [jzMsgNewFromData, decide_eq_true hsize, decide_eq_true hsig]
  change (if _ < envelopeSize (numberAt buf 4 4) then _ else Except.ok (unpackFront buf)) = _
  rw [if_neg (not_lt.2 hfits)]

/-- Too few bytes for an envelope. -/
theorem parse_short (hne : buf ≠ []) (h : ¬ 12 ≤ buf.length) :
    jzBufferParseIntoMessage crc32 buf = .ok {} := by
  have hlen : buf.length < JZ_MSG_ENVELOPE_SIZE := not_le.1 h
  rw [jzBufferParseIntoMessage, decide_eq_true (List.length_pos_of_ne_nil hne), if_pos hlen]
  rfl

/-- Something that is not an envelope. -/
theorem parse_unsigned (h : 12 ≤ buf.length) (hsig : jzBufferBeginsWithSignature buf = false) :
    jzBufferParseIntoMessage crc32 buf = .ok { isFatal := true } := by
  have hlen : ¬ buf.length < JZ_MSG_ENVELOPE_SIZE := not_lt.2 h
  have hpos : buf.length > 0 := lt_of_lt_of_le (by decide) h
  rw [jzBufferParseIntoMessage, decide_eq_true hpos, if_neg hlen, hsig]
  rfl

/-- A part of an envelope. -/
theorem parse_cut (h : 12 ≤ buf.length) (hsig : jzBufferBeginsWithSignature buf = true)
    (hpart : buf.length < envelopeSize (numberAt buf 4 4) % 2 ^ 32) :
    jzBufferParseIntoMessage crc32 buf = .ok {} := by
  have hlen : ¬ buf.length < JZ_MSG_ENVELOPE_SIZE := not_lt.2 h
  have hpos : buf.length > 0 := lt_of_lt_of_le (by decide) h
  rw [jzBufferParseIntoMessage, decide_eq_true hpos, if_neg hlen, hsig,
    if_neg (not_not.2 rfl), containsAMessage_eq h hsig, decide_eq_false (not_not.2 hpart)]
  rfl

/-- A whole envelope with a length that the parser does not allow. -/
theorem parse_oversize (h : Whole buf) (hmax : ¬ numberAt buf 4 4 ≤ JZ_MSG_MAX_PAYLOAD_LENGTH) :
    jzBufferParseIntoMessage crc32 buf = .error .assertFailed := by
  have hlen : ¬ buf.length < JZ_MSG_ENVELOPE_SIZE := not_lt.2 h.header
  have hpos : buf.length > 0 := lt_of_lt_of_le (by decide) h.header
  -- The envelope is found to be invalid, and then its size is asked for.
  rw [jzBufferParseIntoMessage, decide_eq_true hpos, if_neg hlen, h.signature,
    if_neg (not_not.2 rfl), h.contains, envelopeIsValid_eq h, msgBinarySize_eq h,
    decide_eq_false hmax, decide_eq_false fun h => hmax h.1]
  rfl

/-- **A whole envelope** with a length that the parser allows. -/
theorem parse_whole (h : Whole buf) (hmax : numberAt buf 4 4 ≤ JZ_MSG_MAX_PAYLOAD_LENGTH) :
    jzBufferParseIntoMessage crc32 buf = .ok (openEnvelope crc32 buf) := by
  have hlen : ¬ buf.length < JZ_MSG_ENVELOPE_SIZE := not_lt.2 h.header
  have hpos : buf.length > 0 := lt_of_lt_of_le (by decide) h.header
  rw [jzBufferParseIntoMessage, decide_eq_true hpos, if_neg hlen, h.signature,
    if_neg (not_not.2 rfl), h.contains, envelopeIsValid_eq h, msgBinarySize_eq h,
    msgBodyLength_eq h.header, msgLcn_eq h.header, decide_eq_true hmax, openEnvelope]
  by_cases hcrc : CrcMatches crc32 buf
  · rw [decide_eq_true ⟨hmax, hcrc⟩, if_neg (not_not.2 hcrc)]
    change (if numberAt buf 4 4 < JZ_MSG_PAYLOAD_HEADER_SIZE then Except.ok _ else
      if numberAt buf 10 2 > JZ_MSG_MAX_LCN then Except.ok _ else jzMsgNewFromData buf >>= _) = _
    by_cases hmin : numberAt buf 4 4 < JZ_MSG_PAYLOAD_HEADER_SIZE
    · rw [if_pos hmin, if_pos hmin]
    · rw [if_neg hmin, if_neg hmin, newFromData_eq h hmax hmin]
      by_cases hlcn : numberAt buf 10 2 > JZ_MSG_MAX_LCN
      · rw [if_pos hlcn, if_pos hlcn]
      · rw [if_neg hlcn, if_neg hlcn]
        change (match (unpackFront buf).self with | .ok self => _ | .error invalidity => _) =
          Except.ok (unpackFront buf).parsed
        unfold Unpacked.parsed
        cases (unpackFront buf).self <;> rfl
  · rw [decide_eq_false fun h => hcrc h.2, if_pos hcrc]
    rfl

/-- The decoder is given no more than the envelope. -/
theorem unpackFront_bounds (buf : List UInt8) : 12 ≤ (unpackFront buf).packedSize ∧
    (unpackFront buf).packedSize ≤ envelopeSize (numberAt buf 4 4) := by
  refine unpack_bounds _ _ _ _ ?_
  have hsize : 12 ≤ envelopeSize (numberAt buf 4 4) := by
    change 12 ≤ 12 + _ + _
    omega
  rw [bytesAt, List.length_take]
  omega

theorem openEnvelope_bounds (crc32 : List UInt8 → UInt32) (buf : List UInt8) :
    12 ≤ (openEnvelope crc32 buf).siz ∧
      (openEnvelope crc32 buf).siz ≤ envelopeSize (numberAt buf 4 4) := by
  have hsize : 12 ≤ envelopeSize (numberAt buf 4 4) := by
    change 12 ≤ 12 + _ + _
    omega
  unfold openEnvelope
  split_ifs
  · exact ⟨hsize, le_rfl⟩
  · exact ⟨hsize, le_rfl⟩
  · change 12 ≤ (unpackFront buf).parsed.siz ∧ (unpackFront buf).parsed.siz ≤ _
    rw [Unpacked.parsed_siz]
    exact unpackFront_bounds buf
  · exact ⟨hsize, le_rfl⟩

theorem openEnvelope_isFatal (crc32 : List UInt8 → UInt32) (buf : List UInt8) :
    (openEnvelope crc32 buf).isFatal = false := by
  have hparsed (u : Unpacked) : u.parsed.isFatal = false := by
    unfold Unpacked.parsed
    cases u.self <;> rfl
  unfold openEnvelope
  split_ifs
  · rfl
  · rfl
  · exact hparsed _
  · rfl

/-! ### A longer buffer -/

/-- An envelope is opened in the same way whatever follows it. -/
theorem openEnvelope_append (h : Whole buf) (hfits : envelopeSize (numberAt buf 4 4) ≤ buf.length)
    (rest : List UInt8) : openEnvelope crc32 (buf ++ rest) = openEnvelope crc32 buf := by
  have hheader := h.header
  have hsize : envelopeSize (numberAt buf 4 4) =
    12 + numberAt buf 4 4 + JZ_MSG_PADDING_LENGTH (numberAt buf 4 4) := rfl
  have hnumber (i n : ℕ) (hle : i + n ≤ 12) : numberAt (buf ++ rest) i n = numberAt buf i n :=
    numberAt_of_le (le_trans hle hheader) rest
  have hcrc : CrcMatches crc32 (buf ++ rest) ↔ CrcMatches crc32 buf := by
    unfold CrcMatches
    rw [hnumber 4 4 (by decide), numberAt_of_le (by omega) rest, bytesAt_of_le (by omega) rest]
  have hunpack : unpackFront (buf ++ rest) = unpackFront buf := by
    unfold unpackFront
    rw [hnumber 4 4 (by decide), hnumber 8 1 (by decide), hnumber 9 1 (by decide),
      hnumber 10 2 (by decide), bytesAt_of_le (by omega) rest]
  unfold openEnvelope
  rw [hnumber 4 4 (by decide), hnumber 10 2 (by decide), hunpack]
  simp only [hcrc]

/-- **The parser does not change its mind.** Unless it wants more, it finds in a buffer what
it finds in any longer one. -/
theorem parse_append (hne : buf ≠ []) (hmore : jzBufferParseIntoMessage crc32 buf ≠ .ok {})
    (rest : List UInt8) :
    jzBufferParseIntoMessage crc32 (buf ++ rest) = jzBufferParseIntoMessage crc32 buf := by
  by_cases hheader : 12 ≤ buf.length
  · have hheader' : 12 ≤ (buf ++ rest).length := by
      rw [List.length_append]
      omega
    cases hsig : jzBufferBeginsWithSignature buf with
    | false =>
      rw [parse_unsigned hheader hsig, parse_unsigned hheader'
        ((beginsWithSignature_append hheader rest).trans hsig)]
    | true =>
      have hwhole : Whole buf :=
        ⟨hheader, hsig, not_lt.1 fun hpart => hmore (parse_cut hheader hsig hpart)⟩
      have hlength : numberAt (buf ++ rest) 4 4 = numberAt buf 4 4 :=
        numberAt_of_le (by omega) rest
      by_cases hmax : numberAt buf 4 4 ≤ JZ_MSG_MAX_PAYLOAD_LENGTH
      · rw [parse_whole hwhole hmax, parse_whole (hwhole.append rest) (by rwa [hlength]),
          openEnvelope_append hwhole (hwhole.fits hmax)]
      · rw [parse_oversize hwhole hmax, parse_oversize (hwhole.append rest) (by rwa [hlength])]
  · exact absurd (parse_short hne hheader) hmore

/-- A message or a diagnostic takes something off the buffer, and no more than there is. -/
theorem parse_bounds {r : Parsed} (hne : buf ≠ [])
    (h : jzBufferParseIntoMessage crc32 buf = .ok r) :
    r.siz ≤ buf.length ∧ (r = {} ∨ r = { isFatal := true } ∨ (0 < r.siz ∧ r.isFatal = false)) := by
  by_cases hheader : 12 ≤ buf.length
  · cases hsig : jzBufferBeginsWithSignature buf with
    | false =>
      rw [parse_unsigned hheader hsig] at h
      cases h
      exact ⟨Nat.zero_le _, .inr (.inl rfl)⟩
    | true =>
      by_cases hpart : buf.length < envelopeSize (numberAt buf 4 4) % 2 ^ 32
      · rw [parse_cut hheader hsig hpart] at h
        cases h
        exact ⟨Nat.zero_le _, .inl rfl⟩
      · have hwhole : Whole buf := ⟨hheader, hsig, not_lt.1 hpart⟩
        by_cases hmax : numberAt buf 4 4 ≤ JZ_MSG_MAX_PAYLOAD_LENGTH
        · rw [parse_whole hwhole hmax] at h
          cases h
          obtain ⟨hpos, hle⟩ := openEnvelope_bounds crc32 buf
          exact ⟨le_trans hle (hwhole.fits hmax),
            .inr (.inr ⟨by omega, openEnvelope_isFatal crc32 buf⟩)⟩
        · rw [parse_oversize hwhole hmax] at h
          cases h
  · rw [parse_short hne hheader] at h
    cases h
    exact ⟨Nat.zero_le _, .inl rfl⟩

/-! ### Parts of envelopes -/

/-- **The parser waits for the rest of an envelope.** -/
theorem parse_incomplete (crc32 : List UInt8 → UInt32) {crc : UInt32} {m : JzMsg} {n : ℕ}
    (hn : (putBody m).length = n) (hlt : n + 16 ≤ 2 ^ 32) {buf rest : List UInt8}
    (henv : envelope crc m n = buf ++ rest) (hbuf : buf ≠ []) (hrest : rest ≠ []) :
    jzBufferParseIntoMessage crc32 buf = .ok {} := by
  by_cases hheader : 12 ≤ buf.length
  · -- The header of the envelope has arrived, so the parser knows how much is missing.
    have hsig : jzBufferBeginsWithSignature buf = true := by
      have h := @beginsWithSignature_envelope crc m n []
      rwa [List.append_nil, henv, beginsWithSignature_append hheader] at h
    have hbody : numberAt buf 4 4 = n := by
      have h := @bodyLength_envelope crc m n [] (by omega)
      rwa [List.append_nil, henv, numberAt_of_le (by omega)] at h
    -- The sum does not overflow, so that the comparison is that of the lengths.
    have hsize : envelopeSize n < 2 ^ 32 := lt_of_le_of_lt (envelopeSize_le n) (by omega)
    have hlen : (envelope crc m n).length = envelopeSize n := length_envelope hn
    have hrestlen := List.length_pos_of_ne_nil hrest
    rw [henv, List.length_append] at hlen
    refine parse_cut hheader hsig ?_
    rw [hbody, Nat.mod_eq_of_lt hsize]
    omega
  · exact parse_short hbuf hheader

end Application10
end Jozabad
