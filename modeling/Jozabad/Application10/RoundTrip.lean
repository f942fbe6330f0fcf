import Jozabad.Application10.Codec
import Jozabad.Application10.Crc

/-!
# Encoding and decoding

What the encoder writes for a field is read back by the macro of that field, whatever
follows it (`Reader.Reads`). From the fields this goes to the fields of a message type,
to the envelope, and to a buffer that begins with an envelope. There the parser finds
the message again, takes exactly the envelope and complains about nothing.

The decoder returns `m.received` for a message `m`: the fields that the type of `m` has,
and an empty string where `m` has none.
-/

namespace Jozabad
namespace Application10

open Reader

/-! ### What arrives of a message -/

/-- The fields of `m` that are on the wire. -/
def JzMsg.received (m : JzMsg) : JzMsg :=
  let header : JzMsg := { version := m.version, id := m.id, lcn := m.lcn }
  let calling : Option CString := some (m.callingAddress.getD .empty)
  let called : Option CString := some (m.calledAddress.getD .empty)
  match m.id with
  | .data => { header with q := m.q, pr := m.pr, ps := m.ps, data := m.data }
  | .rr | .rnr => { header with pr := m.pr }
  | .callRequest | .callAccepted =>
    { header with callingAddress := calling, calledAddress := called, packet := m.packet
                  window := m.window, throughput := m.throughput, data := m.data }
  | .clearRequest | .resetRequest | .restartRequest =>
    { header with cause := m.cause, diagnostic := m.diagnostic }
  | .connect => { header with callingAddress := calling, iodir := m.iodir }
  | .diagnostic =>
    { header with diagnostic := m.diagnostic, diagnosticVersion := m.diagnosticVersion
                  diagnosticId := m.diagnosticId, diagnosticLcn := m.diagnosticLcn }
  | _ => header

/-- The types that carry a raw block. -/
def MsgId.HasData (id : MsgId) : Prop :=
  id = .data ∨ id = .callRequest ∨ id = .callAccepted

instance (id : MsgId) : Decidable id.HasData :=
  inferInstanceAs (Decidable (_ ∨ _))

/-- The strings of a message have lengths that one byte can tell, and its raw block is
one that the decoder takes. -/
structure JzMsg.Fits (m : JzMsg) : Prop where
  calling : ∀ s, m.callingAddress = some s → s.length ≤ 255
  called : ∀ s, m.calledAddress = some s → s.length ≤ 255
  data : m.id.HasData → rawSize m.data ≤ RAW_MAX

instance (m : JzMsg) : Decidable m.Fits :=
  decidable_of_iff ((∀ s ∈ m.callingAddress, s.length ≤ 255) ∧
    (∀ s ∈ m.calledAddress, s.length ≤ 255) ∧ (m.id.HasData → rawSize m.data ≤ RAW_MAX))
    ⟨fun ⟨hcalling, hcalled, hdata⟩ => ⟨hcalling, hcalled, hdata⟩,
      fun h => ⟨h.calling, h.called, h.data⟩⟩

/-! ### Fields -/

theorem reads_getNumber1 (x : UInt8) : getNumber1.Reads (putNumber1 x) x := by
  have h := (reads_getNumber Diag.packetTooShort (n := 1) x.toNat_lt).map (f := UInt8.ofNat)
  rwa [UInt8.ofNat_toNat] at h

theorem reads_getNumber2 (x : UInt16) : getNumber2.Reads (putNumber2 x) x := by
  have h := (reads_getNumber Diag.packetTooShort (n := 2) x.toNat_lt).map (f := UInt16.ofNat)
  rwa [UInt16.ofNat_toNat] at h

/-- A C string has no NUL among its bytes, so all of them are read back. -/
theorem reads_getString {s : CString} (h : s.length ≤ 255) :
    getString.Reads (putString s) (some s) := by
  refine (reads_getNumber Diag.packetTooShort (n := 1) (Nat.lt_succ_of_le h)).bind ?_
  have hbytes := (reads_getBytes Diag.packetTooShort s.bytes).map
    (f := fun host => some (CString.ofBytes host))
  rwa [CString.ofBytes_bytes] at hbytes

theorem reads_getAddress {a : Option CString} (h : ∀ s, a = some s → s.length ≤ 255) :
    getString.Reads (putAddress a) (some (a.getD .empty)) := by
  cases a with
  | some s => exact reads_getString (h s rfl)
  | none => exact reads_getString (s := .empty) (Nat.zero_le _)

theorem reads_getRaw {data : List UInt8} (h : rawSize data ≤ RAW_MAX) :
    getRaw.Reads (putRaw data) data := by
  have hlen : data.length ≤ RAW_MAX := le_trans (Nat.le_add_left _ _) h
  refine (reads_getNumber Diag.packetTooShort (n := 2)
    (lt_of_le_of_lt hlen (by decide))).bind fun rest => ?_
  change (if (data ++ rest).length < data.length then _ else _) = _
  rw [if_neg (by rw [List.length_append]; exact not_lt.2 (Nat.le_add_right _ _)),
    if_neg (not_lt.2 hlen), List.take_left, List.drop_left]

theorem reads_getPadding (n : ℕ) : (getPadding n).Reads (List.replicate n 0) () := by
  induction n with
  | zero => exact Reads.pure ()
  | succ n ih => exact (reads_getNumber1 0).bind ih

/-! ### Messages -/

/-- **Every type's fields are read in the order in which they are written.** -/
theorem reads_getFields {m : JzMsg} (h : m.Fits) :
    (getFields m.version m.id m.lcn).Reads (putFields m) m.received := by
  unfold getFields putFields JzMsg.received
  cases hid : m.id with
  | data =>
    exact (reads_getNumber1 _).bind ((reads_getNumber2 _).bind ((reads_getNumber2 _).bind
      (reads_getRaw (h.data (.inl hid))).map))
  | rr | rnr => exact (reads_getNumber2 _).map
  | callRequest =>
    exact (reads_getAddress h.calling).bind ((reads_getAddress h.called).bind
      ((reads_getNumber1 _).bind ((reads_getNumber2 _).bind ((reads_getNumber1 _).bind
        (reads_getRaw (h.data (.inr (.inl hid)))).map))))
  | callAccepted =>
    exact (reads_getAddress h.calling).bind ((reads_getAddress h.called).bind
      ((reads_getNumber1 _).bind ((reads_getNumber2 _).bind ((reads_getNumber1 _).bind
        (reads_getRaw (h.data (.inr (.inr hid)))).map))))
  | clearRequest | resetRequest | restartRequest =>
    exact (reads_getNumber1 _).bind (reads_getNumber1 _).map
  | connect => exact (reads_getAddress h.calling).bind (reads_getNumber1 _).map
  | diagnostic =>
    exact (reads_getNumber1 _).bind ((reads_getNumber1 _).bind ((reads_getNumber1 _).bind
      (reads_getNumber2 _).map))
  -- These have no fields.
  | clearConfirmation | resetConfirmation | restartConfirmation | connectIndication | disconnect
    | disconnectIndication | directoryRequest | directory | enq | ack => exact Reads.pure _

/-- What stands behind the logical channel number of an envelope. -/
def putTail (m : JzMsg) (padding : ℕ) (crc : UInt32) : List UInt8 :=
  putFields m ++ (List.replicate padding 0 ++ putNumber 4 crc.toNat)

theorem reads_getTail {m : JzMsg} (h : m.Fits) (hversion : m.version = 1) (padding : ℕ)
    (crc : UInt32) : (getTail m.version m.id.code m.lcn padding).Reads (putTail m padding crc)
      m.received := by
  have hcrc : (do let _ ← getNumber Diag.packetTooShort 4; return m.received).Reads
      (putNumber 4 crc.toNat) m.received := (reads_getNumber _ crc.toNat_lt).map
  have htail : (do let self ← getFields m.version m.id m.lcn; getPadding padding
                   let _ ← getNumber Diag.packetTooShort 4; return self).Reads
      (putTail m padding crc) m.received :=
    (reads_getFields h).bind ((reads_getPadding padding).bind hcrc)
  intro rest
  unfold getTail
  rw [if_neg (not_not.2 hversion), MsgId.ofCode_code]
  exact htail rest

/-- Nothing is left over. -/
theorem unpack_putTail {m : JzMsg} (h : m.Fits) (hversion : m.version = 1) (padding ceiling : ℕ)
    (crc : UInt32) : unpack m.version m.id.code m.lcn padding ceiling (putTail m padding crc) =
      { version := m.version, id := m.id.code, lcn := m.lcn, self := .ok m.received
        packedSize := ceiling } := by
  have hread := reads_getTail h hversion padding crc []
  rw [List.append_nil] at hread
  unfold unpack
  rw [hread]
  simp only [List.length_nil, Nat.sub_zero, lt_irrefl, if_false]

/-! ### Envelopes -/

theorem length_putAddress (a : Option CString) : (putAddress a).length = addressSize a := by
  cases a with
  | none => rfl
  | some s => rw [putAddress, putString, List.length_append, length_putNumber]; rfl

/-- **The two switches of the encoder agree.** -/
theorem length_putBody {m : JzMsg} {n : ℕ} (h : frameSize m = .ok n) : (putBody m).length = n := by
  have hraw (d : List UInt8) : (putRaw d).length = rawSize d := by
    rw [putRaw, List.length_append, length_putNumber, rawSize]
  unfold frameSize at h
  unfold putBody putFields
  cases hid : m.id <;> rw [hid] at h <;> cases h <;>
    simp only [List.length_append, putNumber1, putNumber2, length_putNumber, length_putAddress,
      hraw, List.length_nil, JZ_MSG_PAYLOAD_HEADER_SIZE] <;> ring

/-- A raw block is part of the body. -/
theorem rawSize_le {m : JzMsg} {n : ℕ} (h : frameSize m = .ok n) (hid : m.id.HasData) :
    rawSize m.data ≤ n := by
  unfold frameSize at h
  obtain hid | hid | hid := hid <;> rw [hid] at h <;> cases h <;> exact Nat.le_add_left _ _

/-- An envelope around the body of `m`, which has `n` bytes. -/
def envelope (crc : UInt32) (m : JzMsg) (n : ℕ) : List UInt8 :=
  putNumber 4 JZ_MSG_SIGNATURE ++ (putNumber 4 n ++ (putBody m ++
    (List.replicate (JZ_MSG_PADDING_LENGTH n) 0 ++ putNumber 4 crc.toNat)))

theorem length_envelope {crc : UInt32} {m : JzMsg} {n : ℕ} (h : (putBody m).length = n) :
    (envelope crc m n).length = JZ_MSG_ENVELOPE_SIZE + n + JZ_MSG_PADDING_LENGTH n := by
  simp only [envelope, List.length_append, length_putNumber, List.length_replicate, h]
  change _ = 12 + n + JZ_MSG_PADDING_LENGTH n
  ring

/-- The encoder writes an envelope, with the checksum of the body. -/
theorem jzMsgToByteArray_eq (crc32 : List UInt8 → UInt32) {m : JzMsg} {n : ℕ}
    (h : frameSize m = .ok n) :
    jzMsgToByteArray crc32 m = .ok (envelope (crc32 (putBody m)) m n) := by
  have hbody (b c : List UInt8) : bytesAt (putNumber 4 JZ_MSG_SIGNATURE ++ (putNumber 4 n ++
      (putBody m ++ b))) JZ_MSG_ENVELOPE_HEADER_SIZE n = putBody m :=
    ((bytesAt_append_right (length_putNumber 4 _) _ 4 n).trans
      (bytesAt_append_right (length_putNumber 4 _) _ 0 n)).trans
        (bytesAt_append_left (length_putBody h) b)
  unfold jzMsgToByteArray envelope
  rw [h]
  change Except.ok _ = _
  rw [hbody _ []]
  simp only [List.append_assoc]

/-- The parser's bound on a body can be told with four bytes. -/
private theorem lt_of_le_max {n : ℕ} (h : n ≤ JZ_MSG_MAX_PAYLOAD_LENGTH) : n < 256 ^ 4 :=
  lt_of_le_of_lt h (by decide)

section Buffer

/-! What the parser sees of a buffer that begins with an envelope. -/

variable {crc : UInt32} {m : JzMsg} {n : ℕ} (hn : (putBody m).length = n)
  (hmax : n ≤ JZ_MSG_MAX_PAYLOAD_LENGTH) (rest : List UInt8)

/-- Behind the header of the envelope stands the body. -/
theorem bytesAt_envelope (j k : ℕ) : bytesAt (envelope crc m n ++ rest) (8 + j) k =
    bytesAt (putBody m ++ (List.replicate (JZ_MSG_PADDING_LENGTH n) 0 ++
      (putNumber 4 crc.toNat ++ rest))) j k := by
  have happ : envelope crc m n ++ rest = (putNumber 4 JZ_MSG_SIGNATURE ++ putNumber 4 n) ++
      (putBody m ++ (List.replicate (JZ_MSG_PADDING_LENGTH n) 0 ++
        (putNumber 4 crc.toNat ++ rest))) := by
    simp only [envelope, List.append_assoc]
  rw [happ, bytesAt_append_right (by simp only [List.length_append, length_putNumber])]

theorem bodyLength_envelope (hlt : n < 256 ^ 4) :
    numberAt (envelope crc m n ++ rest) 4 4 = n := by
  rw [envelope, List.append_assoc, List.append_assoc]
  exact (numberAt_append_right (length_putNumber 4 _) _ 0 4).trans (numberAt_append_left hlt _)

theorem beginsWithSignature_envelope :
    jzBufferBeginsWithSignature (envelope crc m n ++ rest) = true := by
  have hlen : ¬ (envelope crc m n ++ rest).length < JZ_MSG_ENVELOPE_SIGNATURE_SIZE := by
    rw [envelope, List.append_assoc, List.length_append, length_putNumber]
    exact not_lt.2 (Nat.le_add_right _ _)
  have hsig : numberAt (envelope crc m n ++ rest) 0 4 = JZ_MSG_SIGNATURE := by
    rw [envelope, List.append_assoc]
    exact numberAt_append_left (by decide) _
  exact decide_eq_true ⟨hlen, hsig⟩

/-! The header of the body, and what stands behind it. -/

theorem putBody_append (m : JzMsg) (t : List UInt8) :
    putBody m ++ t = putNumber 1 m.version.toNat ++ (putNumber 1 m.id.code.toNat ++
      (putNumber 2 m.lcn.toNat ++ (putFields m ++ t))) := by
  simp only [putBody, putNumber1, putNumber2, List.append_assoc]

theorem version_envelope :
    UInt8.ofNat (numberAt (envelope crc m n ++ rest) 8 1) = m.version := by
  rw [numberAt, bytesAt_envelope rest 0 1, putBody_append]
  exact (congrArg UInt8.ofNat (numberAt_append_left m.version.toNat_lt _)).trans
    UInt8.ofNat_toNat

theorem id_envelope : UInt8.ofNat (numberAt (envelope crc m n ++ rest) 9 1) = m.id.code := by
  rw [numberAt, bytesAt_envelope rest 1 1, putBody_append]
  exact (congrArg UInt8.ofNat ((numberAt_append_right (length_putNumber 1 _) _ 0 1).trans
    (numberAt_append_left m.id.code.toNat_lt _))).trans UInt8.ofNat_toNat

theorem lcn_envelope : numberAt (envelope crc m n ++ rest) 10 2 = m.lcn.toNat := by
  rw [numberAt, bytesAt_envelope rest 2 2, putBody_append]
  exact (numberAt_append_right (length_putNumber 1 _) _ 1 2).trans
    ((numberAt_append_right (length_putNumber 1 _) _ 0 2).trans
      (numberAt_append_left m.lcn.toNat_lt _))

include hn in
/-- The decoder takes the fields out of exactly the rest of the envelope. -/
theorem tail_envelope : bytesAt (envelope crc m n ++ rest) 12
    (JZ_MSG_ENVELOPE_SIZE + n + JZ_MSG_PADDING_LENGTH n - 12) =
      putTail m (JZ_MSG_PADDING_LENGTH n) crc := by
  have hlen : (putTail m (JZ_MSG_PADDING_LENGTH n) crc).length =
      JZ_MSG_ENVELOPE_SIZE + n + JZ_MSG_PADDING_LENGTH n - 12 := by
    -- The body is its header of four bytes and the fields.
    have hbody : 4 + (putFields m).length = n := by
      rw [← hn, putBody, putNumber1, putNumber1, putNumber2, List.length_append,
        List.length_append, List.length_append, length_putNumber, length_putNumber,
        length_putNumber]
      omega
    simp only [putTail, List.length_append, List.length_replicate, length_putNumber]
    change _ = 12 + n + JZ_MSG_PADDING_LENGTH n - 12
    omega
  have happ (t : List UInt8) : putFields m ++ (List.replicate (JZ_MSG_PADDING_LENGTH n) 0 ++
      (putNumber 4 crc.toNat ++ t)) = putTail m (JZ_MSG_PADDING_LENGTH n) crc ++ t := by
    simp only [putTail, List.append_assoc]
  -- Past the envelope header, the version, the id and the number.
  rw [bytesAt_envelope rest 4 _, putBody_append, happ]
  exact (bytesAt_append_right (length_putNumber 1 _) _ 3 _).trans
    ((bytesAt_append_right (length_putNumber 1 _) _ 2 _).trans
      ((bytesAt_append_right (length_putNumber 2 _) _ 0 _).trans (bytesAt_append_left hlen _)))

/-! The checksum. -/

include hn in
theorem body_envelope : bytesAt (envelope crc m n ++ rest) JZ_MSG_ENVELOPE_HEADER_SIZE n =
    putBody m :=
  (bytesAt_envelope rest 0 n).trans (bytesAt_append_left hn _)

include hn in
theorem crc_envelope : numberAt (envelope crc m n ++ rest)
    (JZ_MSG_ENVELOPE_HEADER_SIZE + n + JZ_MSG_PADDING_LENGTH n) 4 = crc.toNat := by
  have hoff : JZ_MSG_ENVELOPE_HEADER_SIZE + n + JZ_MSG_PADDING_LENGTH n =
      8 + (n + (JZ_MSG_PADDING_LENGTH n + 0)) := by
    change 8 + n + _ = _
    ring
  rw [hoff, numberAt, bytesAt_envelope, bytesAt_append_right hn,
    bytesAt_append_right List.length_replicate]
  exact numberAt_append_left crc.toNat_lt rest

/-! The parser's questions, in its order. -/

include hn in
theorem length_le_buffer : JZ_MSG_ENVELOPE_SIZE + n + JZ_MSG_PADDING_LENGTH n ≤
    (envelope crc m n ++ rest).length := by
  rw [List.length_append, length_envelope hn]
  exact Nat.le_add_right _ _

include hn in
theorem size_le_buffer : JZ_MSG_ENVELOPE_SIZE ≤ (envelope crc m n ++ rest).length :=
  le_trans (le_trans (Nat.le_add_right _ n) (Nat.le_add_right _ _)) (length_le_buffer hn rest)

include hn hmax in
theorem msgBodyLength_envelope :
    jzBufferMsgBodyLength (envelope crc m n ++ rest) = .ok n := by
  have hlen := le_trans (by decide : JZ_MSG_ENVELOPE_HEADER_SIZE ≤ JZ_MSG_ENVELOPE_SIZE)
    (@size_le_buffer crc m n hn rest)
  rw [jzBufferMsgBodyLength, decide_eq_true hlen, bodyLength_envelope rest (lt_of_le_max hmax)]
  rfl

include hn hmax in
theorem containsAMessage_envelope :
    jzBufferContainsAMessage (envelope crc m n ++ rest) = .ok true := by
  have hmod : (JZ_MSG_ENVELOPE_SIZE + n + JZ_MSG_PADDING_LENGTH n) % 2 ^ 32 ≤
      (envelope crc m n ++ rest).length :=
    le_trans (Nat.mod_le _ _) (length_le_buffer hn rest)
  rw [jzBufferContainsAMessage, if_neg (not_lt.2 (size_le_buffer hn rest)),
    beginsWithSignature_envelope, if_neg (not_not.2 rfl), msgBodyLength_envelope hn hmax]
  exact congrArg Except.ok (decide_eq_true (not_lt.2 hmod))

include hn hmax in
theorem envelopeIsValid_envelope {crc32 : List UInt8 → UInt32} (hcrc : crc = crc32 (putBody m)) :
    jzBufferMsgEnvelopeIsValid crc32 (envelope crc m n ++ rest) = .ok true := by
  have hend : JZ_MSG_ENVELOPE_HEADER_SIZE + n + JZ_MSG_PADDING_LENGTH n + 4 ≤
      (envelope crc m n ++ rest).length := by
    refine le_trans (le_of_eq ?_) (length_le_buffer hn rest)
    change 8 + n + _ + 4 = 12 + n + _
    ring
  rw [jzBufferMsgEnvelopeIsValid, if_neg (not_lt.2 (size_le_buffer hn rest)),
    beginsWithSignature_envelope, if_neg (not_not.2 rfl), msgBodyLength_envelope hn hmax]
  change (if n > JZ_MSG_MAX_PAYLOAD_LENGTH then _ else if _ then _ else _) = _
  rw [if_neg (not_lt.2 hmax), if_neg (not_lt.2 hend), body_envelope hn, crc_envelope hn, hcrc]
  exact congrArg Except.ok (decide_eq_true rfl)

include hn hmax in
/-- **The decoder finds the message again**, and takes the whole envelope. -/
theorem newFromData_envelope (hm : m.Fits) (hversion : m.version = 1) :
    jzMsgNewFromData (envelope crc m n ++ rest) = .ok
      { version := m.version, id := m.id.code, lcn := m.lcn, self := .ok m.received
        packedSize := (envelope crc m n).length } := by
  have hsize : JZ_MSG_ENVELOPE_SIZE < (envelope crc m n ++ rest).length := by
    refine lt_of_lt_of_le ?_ (length_le_buffer hn rest)
    have hpos : 0 < n := by
      rw [← hn, putBody, putNumber1, List.length_append, length_putNumber]
      omega
    omega
  have hsig : numberAt (envelope crc m n ++ rest) 0 4 = JZ_MSG_SIGNATURE :=
    (of_decide_eq_true (beginsWithSignature_envelope rest)).2
  rw [jzMsgNewFromData, decide_eq_true hsize, decide_eq_true hsig,
    bodyLength_envelope rest (lt_of_le_max hmax), version_envelope, id_envelope, lcn_envelope,
    UInt16.ofNat_toNat]
  change (if _ < JZ_MSG_ENVELOPE_SIZE + n + JZ_MSG_PADDING_LENGTH n then _ else
    Except.ok (unpack _ _ _ _ _ _)) = _
  rw [if_neg (not_lt.2 (length_le_buffer hn rest)), tail_envelope hn,
    unpack_putTail hm hversion, length_envelope hn]

include hn hmax in
/-- **Parsing a buffer that begins with an envelope.** -/
theorem parse_envelope {crc32 : List UInt8 → UInt32} (hcrc : crc = crc32 (putBody m))
    (hm : m.Fits) (hversion : m.version = 1) (hlcn : m.lcn.toNat ≤ JZ_MSG_MAX_LCN) :
    jzBufferParseIntoMessage crc32 (envelope crc m n ++ rest) = .ok
      { siz := (envelope crc m n).length, msg := some m.received } := by
  have hsize := @size_le_buffer crc m n hn rest
  have hpos : (envelope crc m n ++ rest).length > 0 := lt_of_lt_of_le (by decide) hsize
  have hhead : JZ_MSG_PAYLOAD_HEADER_SIZE ≤ n := by
    rw [← hn, putBody, putNumber1, putNumber1, putNumber2, ← List.append_assoc,
      ← List.append_assoc, List.length_append]
    simp only [List.length_append, length_putNumber]
    exact Nat.le_add_right 4 _
  have hmsgLcn : jzBufferMsgLcn (envelope crc m n ++ rest) = .ok m.lcn.toNat := by
    have hlen : JZ_MSG_ENVELOPE_HEADER_SIZE + JZ_MSG_PAYLOAD_HEADER_SIZE ≤
        (envelope crc m n ++ rest).length := hsize
    rw [jzBufferMsgLcn, decide_eq_true hlen, lcn_envelope]
    rfl
  -- All checks are passed, in the order of the source.
  rw [jzBufferParseIntoMessage, decide_eq_true hpos, if_neg (not_lt.2 hsize),
    beginsWithSignature_envelope, if_neg (not_not.2 rfl), containsAMessage_envelope hn hmax,
    envelopeIsValid_envelope hn hmax rest hcrc, msgBodyLength_envelope hn hmax, hmsgLcn,
    newFromData_envelope hn hmax rest hm hversion]
  change (if n < JZ_MSG_PAYLOAD_HEADER_SIZE then _ else
    if m.lcn.toNat > JZ_MSG_MAX_LCN then _ else _) = _
  rw [if_neg (not_lt.2 hhead), if_neg (not_lt.2 hlcn)]
  rfl

end Buffer

/-! ### The round trip -/

/-- A message whose body the parser takes has a raw block that the decoder takes. -/
theorem JzMsg.Fits.of_frameSize {m : JzMsg} {n : ℕ} (hsize : frameSize m = .ok n)
    (hmax : n ≤ JZ_MSG_MAX_PAYLOAD_LENGTH)
    (hcalling : ∀ s, m.callingAddress = some s → s.length ≤ 255)
    (hcalled : ∀ s, m.calledAddress = some s → s.length ≤ 255) : m.Fits where
  calling := hcalling
  called := hcalled
  data hid := le_trans (le_trans (rawSize_le hsize hid) hmax) (by decide)

/-- **The round trip.** Take a message of any type that the encoder supports, with
version 1, a logical channel number in range, strings of at most 255 bytes and a body
that is not too long for the parser. Whatever follows its encoding in a buffer, the
parser yields its fields again, reports nothing, and takes exactly the encoding. -/
theorem round_trip (crc32 : List UInt8 → UInt32) {m : JzMsg} {n : ℕ}
    (hsize : frameSize m = .ok n) (hmax : n ≤ JZ_MSG_MAX_PAYLOAD_LENGTH)
    (hversion : m.version = JZ_MSG_VERSION) (hlcn : m.lcn.toNat ≤ JZ_MSG_MAX_LCN)
    (hcalling : ∀ s, m.callingAddress = some s → s.length ≤ 255)
    (hcalled : ∀ s, m.calledAddress = some s → s.length ≤ 255) :
    ∃ bytes, jzMsgToByteArray crc32 m = .ok bytes ∧
      ∀ rest, jzBufferParseIntoMessage crc32 (bytes ++ rest) = .ok
        { siz := bytes.length, msg := some m.received, isError := false, isFatal := false } :=
  ⟨envelope (crc32 (putBody m)) m n, jzMsgToByteArray_eq crc32 hsize, fun rest =>
    parse_envelope (length_putBody hsize) hmax rest rfl (.of_frameSize hsize hmax hcalling hcalled)
      hversion hlcn⟩

/-- A `DATA` message with padding. -/
theorem round_trip_data :
    ∃ bytes, jzMsgToByteArray digitalCrc32 (jzMsgNewData 5 0 1 2 [0x68, 0x69]) = .ok bytes ∧
      ∀ rest, jzBufferParseIntoMessage digitalCrc32 (bytes ++ rest) = .ok
        { siz := bytes.length, msg := some (jzMsgNewData 5 0 1 2 [0x68, 0x69])
          isError := false, isFatal := false } :=
  round_trip digitalCrc32 (m := jzMsgNewData 5 0 1 2 [0x68, 0x69]) (n := 13) rfl (by decide) rfl
    (by decide) (fun _ h => nomatch h) (fun _ h => nomatch h)

end Application10
end Jozabad
