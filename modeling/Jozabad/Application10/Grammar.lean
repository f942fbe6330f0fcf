import Jozabad.Application10.Parsing
import Jozabad.Lib.Layout

/-!
# The grammar of messages

`layout id` lists the pieces that the fields of a message type are made of. It is the
grammar by which an envelope is judged: `Wellformed crc32 buf` says that the envelope at the
front of `buf` has a right checksum, and a body with a right header and with fields that are
spelled by exactly the rest of the body.

The decoder does not look where the body ends. It reads the fields, the padding and the
checksum off the rest of the envelope, and bytes that are left over, or missing, show that
the fields do not fill the body. So it follows the layout of all this (`follows_getTail`),
and the parser delivers exactly the well-formed messages (`parse_delivers_iff`).
-/

namespace Jozabad
namespace Application10

open Reader Layout

variable {crc32 : List UInt8 → UInt32} {buf : List UInt8}

/-- The pieces of the fields of a message type. -/
def layout : MsgId → List Piece
  | .data => [.number 1, .number 2, .number 2, .counted 2]
  | .rr | .rnr => [.number 2]
  | .callRequest | .callAccepted =>
    [.counted 1, .counted 1, .number 1, .number 2, .number 1, .counted 2]
  | .clearRequest | .resetRequest | .restartRequest => [.number 1, .number 1]
  | .connect => [.counted 1, .number 1]
  | .diagnostic => [.number 1, .number 1, .number 1, .number 2]
  | .clearConfirmation | .resetConfirmation | .restartConfirmation | .connectIndication
    | .disconnect | .disconnectIndication | .directoryRequest | .directory | .enq | .ack => []

/-- The pieces behind the fields: the bytes of the padding, and the checksum. -/
def trailer (padding : ℕ) : List Piece :=
  (List.replicate padding 1 ++ [4]).map .number

/-- **The envelope at the front of `buf` holds a message.** -/
structure Wellformed (crc32 : List UInt8 → UInt32) (buf : List UInt8) : Prop where
  crc : CrcMatches crc32 buf
  length_ge : JZ_MSG_PAYLOAD_HEADER_SIZE ≤ numberAt buf 4 4
  lcn_le : numberAt buf 10 2 ≤ JZ_MSG_MAX_LCN
  version : numberAt buf 8 1 = 1
  fields : ∃ id, MsgId.ofCode (numberAt buf 9 1) = some id ∧
    Spells (layout id) (bytesAt buf 12 (numberAt buf 4 4 - JZ_MSG_PAYLOAD_HEADER_SIZE))

/-! ### What the decoder follows -/

theorem follows_getNumber1 : Follows RAW_MAX getNumber1 [.number 1] :=
  (follows_getNumber Diag.packetTooShort 1).map _

theorem follows_getNumber2 : Follows RAW_MAX getNumber2 [.number 2] :=
  (follows_getNumber Diag.packetTooShort 2).map _

theorem follows_getString : Follows RAW_MAX getString [.counted 1] :=
  .counted _ fun n => (follows_getBytes Diag.packetTooShort n).map _

/-- A raw block that is in the input is not too long, if the input is not. -/
theorem follows_getRaw : Follows RAW_MAX getRaw [.counted 2] := by
  refine .counted _ fun n input hmax => ?_
  change (if input.length < n then (Except.error Diag.packetTooShort, input) else
      if n > RAW_MAX then (Except.error Diag.ok, input) else
        (Except.ok (input.take n), input.drop n)).1.toOption.isSome = _ ∧
    (if input.length < n then (Except.error Diag.packetTooShort, input) else
      if n > RAW_MAX then (Except.error Diag.ok, input) else
        (Except.ok (input.take n), input.drop n)).2 = _
  rw [scan]
  split_ifs with hlen hraw
  · exact ⟨rfl, rfl⟩
  · omega
  · exact ⟨rfl, rfl⟩

theorem follows_getPadding (padding : ℕ) :
    Follows RAW_MAX (getPadding padding) ((List.replicate padding 1).map .number) := by
  induction padding with
  | zero => exact .pure RAW_MAX ()
  | succ padding ih => exact follows_getNumber1.bind fun _ => ih

/-- **Every type's fields are read by its layout.** -/
theorem follows_getFields (version : UInt8) (id : MsgId) (lcn : UInt16) :
    Follows RAW_MAX (getFields version id lcn) (layout id) := by
  cases id with
  | data =>
    exact follows_getNumber1.bind fun _ => follows_getNumber2.bind fun _ =>
      follows_getNumber2.bind fun _ => follows_getRaw.map _
  | rr | rnr => exact follows_getNumber2.map _
  | callRequest | callAccepted =>
    exact follows_getString.bind fun _ => follows_getString.bind fun _ =>
      follows_getNumber1.bind fun _ => follows_getNumber2.bind fun _ =>
        follows_getNumber1.bind fun _ => follows_getRaw.map _
  | clearRequest | resetRequest | restartRequest =>
    exact follows_getNumber1.bind fun _ => follows_getNumber1.map _
  | connect => exact follows_getString.bind fun _ => follows_getNumber1.map _
  | diagnostic =>
    exact follows_getNumber1.bind fun _ => follows_getNumber1.bind fun _ =>
      follows_getNumber1.bind fun _ => follows_getNumber2.map _
  -- These have no fields.
  | clearConfirmation | resetConfirmation | restartConfirmation | connectIndication | disconnect
    | disconnectIndication | directoryRequest | directory | enq | ack => exact .pure RAW_MAX _

theorem follows_getTail {id : UInt8} {msgId : MsgId} (hid : MsgId.ofCode id.toNat = some msgId)
    (lcn : UInt16) (padding : ℕ) :
    Follows RAW_MAX (getTail 1 id lcn padding) (layout msgId ++ trailer padding) := by
  have hcrc (m : JzMsg) : Follows RAW_MAX
      (do let _ ← getNumber Diag.packetTooShort 4; return m) ([4].map .number) :=
    (follows_getNumber Diag.packetTooShort 4).map fun _ => m
  unfold getTail trailer
  rw [if_neg (not_not.2 rfl), hid, List.map_append]
  exact (follows_getFields 1 msgId lcn).bind fun m => (follows_getPadding padding).bind
    fun _ => hcrc m

/-! ### The rest of an envelope -/

/-- A complete envelope stands at the front of `buf`, with a body that is not too long. -/
structure Complete (buf : List UInt8) : Prop where
  signature : jzBufferBeginsWithSignature buf = true
  whole : envelopeSize (numberAt buf 4 4) ≤ buf.length
  allowed : numberAt buf 4 4 ≤ JZ_MSG_MAX_PAYLOAD_LENGTH

/-- The bytes of the envelope behind the logical channel number. -/
def envelopeTail (buf : List UInt8) : List UInt8 :=
  bytesAt buf 12 (envelopeSize (numberAt buf 4 4) - 12)

theorem Complete.toWhole (h : Complete buf) : Whole buf where
  header := by
    have hwhole := h.whole
    change 12 + _ + _ ≤ _ at hwhole
    omega
  signature := h.signature
  length_le := (Nat.mod_le _ _).trans h.whole

theorem Complete.length_tail (h : Complete buf) :
    (envelopeTail buf).length + 12 = envelopeSize (numberAt buf 4 4) := by
  have hwhole := h.whole
  have hsize : envelopeSize (numberAt buf 4 4) =
    12 + numberAt buf 4 4 + JZ_MSG_PADDING_LENGTH (numberAt buf 4 4) := rfl
  rw [envelopeTail, bytesAt, List.length_take, List.length_drop]
  omega

theorem Complete.length_tail_le (h : Complete buf) : (envelopeTail buf).length ≤ RAW_MAX := by
  have hlen := h.length_tail
  have hle := envelopeSize_le (numberAt buf 4 4)
  have hmax := h.allowed
  change _ ≤ 1032 at hmax
  change _ ≤ 8192
  omega

/-- The trailer takes what the fields leave, so that the fields fill the body. -/
theorem Complete.spells_tail (h : Complete buf)
    (hmin : JZ_MSG_PAYLOAD_HEADER_SIZE ≤ numberAt buf 4 4) {id : MsgId} :
    Spells (layout id ++ trailer (JZ_MSG_PADDING_LENGTH (numberAt buf 4 4))) (envelopeTail buf) ↔
      Spells (layout id) (bytesAt buf 12 (numberAt buf 4 4 - JZ_MSG_PAYLOAD_HEADER_SIZE)) := by
  set L := numberAt buf 4 4
  set pad := JZ_MSG_PADDING_LENGTH L
  have hlen : (envelopeTail buf).length = L - JZ_MSG_PAYLOAD_HEADER_SIZE + (pad + 4) := by
    have htail := h.length_tail
    change _ = 12 + L + pad at htail
    change 4 ≤ L at hmin
    change _ = L - 4 + _
    omega
  have htake : bytesAt buf 12 (L - JZ_MSG_PAYLOAD_HEADER_SIZE) =
      (envelopeTail buf).take (L - JZ_MSG_PAYLOAD_HEADER_SIZE) := by
    have hle : L - JZ_MSG_PAYLOAD_HEADER_SIZE ≤ envelopeSize L - 12 := by
      change L - 4 ≤ 12 + L + pad - 12
      omega
    rw [envelopeTail, bytesAt, bytesAt, List.take_take, min_eq_left hle]
  have htrailer {bs : List UInt8} : Spells (trailer pad) bs ↔ bs.length = pad + 4 := by
    rw [trailer, spells_numbers]
    simp
  rw [spells_append, htake]
  constructor
  · rintro ⟨a, b, hab, ha, hb⟩
    have ha' : a.length = L - JZ_MSG_PAYLOAD_HEADER_SIZE := by
      rw [hab, List.length_append, htrailer.1 hb] at hlen
      omega
    rwa [hab, ← ha', List.take_left]
  · intro hfields
    refine ⟨_, _, (List.take_append_drop _ _).symm, hfields, htrailer.2 ?_⟩
    rw [List.length_drop, hlen]
    omega

/-! ### What the decoder finds -/

variable {version id : UInt8} {lcn : UInt16} {padding ceiling : ℕ} {tail : List UInt8}

/-- A message that is not of the first version, or of no known type, is not looked at. -/
theorem unpack_unread (h : version ≠ 1 ∨ MsgId.ofCode id.toNat = none) :
    ∃ d, unpack version id lcn padding ceiling tail =
      { version, id, lcn, self := .error d, packedSize := ceiling - tail.length } := by
  by_cases hversion : version = 1
  · subst hversion
    have hid : MsgId.ofCode id.toNat = none := h.resolve_left fun hne => hne rfl
    refine ⟨.unknownMessageType, ?_⟩
    rw [unpack, getTail, if_neg (not_not.2 rfl), hid]
    rfl
  · refine ⟨.unknownVersion, ?_⟩
    rw [unpack, getTail, if_pos hversion]
    rfl

/-- **The decoder finds a message** exactly if its pieces are the rest of the envelope. It
takes this rest exactly if they are, or if it breaks off behind it. -/
theorem unpack_known {msgId : MsgId} (hid : MsgId.ofCode id.toNat = some msgId)
    (hceiling : tail.length + 12 = ceiling) (hmax : tail.length ≤ RAW_MAX) :
    ((unpack 1 id lcn padding ceiling tail).self.toOption.isSome ↔
      Spells (layout msgId ++ trailer padding) tail) ∧
    ((unpack 1 id lcn padding ceiling tail).packedSize = ceiling ↔
      Spells (layout msgId ++ trailer padding) tail ∨
        Breaks (layout msgId ++ trailer padding) tail []) := by
  obtain ⟨hok, hleft⟩ := follows_getTail hid lcn padding tail hmax
  have hscan := @scan_snd_eq_nil (layout msgId ++ trailer padding) tail
  have hspells : Spells (layout msgId ++ trailer padding) tail ↔
      scan (layout msgId ++ trailer padding) tail = (true, []) := by
    rw [scan_eq_true]
    simp
  have hlen := length_scan_le (layout msgId ++ trailer padding) tail
  rw [hspells] at hscan ⊢
  unfold unpack
  cases hread : (getTail 1 id lcn padding).on tail with
  | mk self left =>
    rw [hread] at hok hleft
    rw [← hleft] at hscan hlen
    have hsize : ceiling - left.length = ceiling ↔ left = [] := by
      rw [← List.length_eq_zero_iff]
      change left.length ≤ tail.length at hlen
      omega
    cases self with
    | error e =>
      have hstop : (scan (layout msgId ++ trailer padding) tail).1 = false := hok.symm
      refine ⟨⟨fun h => (by cases h), fun h => ?_⟩, hsize.trans hscan⟩
      rw [h] at hstop
      cases hstop
    | ok m =>
      have hwhole : (scan (layout msgId ++ trailer padding) tail).1 = true := hok.symm
      refine ⟨?_, hsize.trans hscan⟩
      have heq : scan (layout msgId ++ trailer padding) tail = (true, left) :=
        Prod.ext hwhole hleft.symm
      change (if ceiling - left.length < ceiling then Except.error Diag.packetTooLong
        else Except.ok m).toOption.isSome ↔ _
      rw [heq, Prod.mk.injEq, and_iff_right rfl, ← hsize]
      split_ifs with hlt
      · exact ⟨fun h => (by cases h), fun h => absurd h hlt.ne⟩
      · exact ⟨fun _ => le_antisymm (Nat.sub_le _ _) (not_lt.1 hlt), fun _ => rfl⟩

/-! ### What the parser delivers -/

/-- The header of a body that the decoder goes on with. -/
structure Known (buf : List UInt8) (id : MsgId) : Prop where
  version : numberAt buf 8 1 = 1
  id : MsgId.ofCode (numberAt buf 9 1) = some id

theorem toNat_numberAt_one (buf : List UInt8) (i : ℕ) :
    (UInt8.ofNat (numberAt buf i 1)).toNat = numberAt buf i 1 := by
  rw [UInt8.toNat_ofNat']
  exact Nat.mod_eq_of_lt (numberAt_lt buf i 1)

/-- The decoder's two verdicts on a message of a known type. -/
theorem unpackFront_known (h : Complete buf) {id : MsgId} (hknown : Known buf id) :
    ((unpackFront buf).self.toOption.isSome ↔
      Spells (layout id ++ trailer (JZ_MSG_PADDING_LENGTH (numberAt buf 4 4)))
        (envelopeTail buf)) ∧
    ((unpackFront buf).packedSize = envelopeSize (numberAt buf 4 4) ↔
      Spells (layout id ++ trailer (JZ_MSG_PADDING_LENGTH (numberAt buf 4 4)))
        (envelopeTail buf) ∨
      Breaks (layout id ++ trailer (JZ_MSG_PADDING_LENGTH (numberAt buf 4 4)))
        (envelopeTail buf) []) := by
  have hid : MsgId.ofCode (UInt8.ofNat (numberAt buf 9 1)).toNat = some id := by
    rw [toNat_numberAt_one, hknown.id]
  have hversion : UInt8.ofNat (numberAt buf 8 1) = 1 := by
    rw [hknown.version]
    rfl
  rw [unpackFront, hversion]
  exact unpack_known hid h.length_tail h.length_tail_le

/-- All other messages are left behind their headers. -/
theorem unpackFront_unknown (h : Complete buf) (hunknown : ∀ id, ¬ Known buf id) :
    (unpackFront buf).self.toOption = none ∧ (unpackFront buf).packedSize = 12 := by
  have hcase : UInt8.ofNat (numberAt buf 8 1) ≠ 1 ∨
      MsgId.ofCode (UInt8.ofNat (numberAt buf 9 1)).toNat = none := by
    rw [toNat_numberAt_one]
    by_contra hboth
    rw [not_or, not_not] at hboth
    obtain ⟨id, hid⟩ := Option.ne_none_iff_exists'.1 hboth.2
    have hversion := congrArg UInt8.toNat hboth.1
    rw [toNat_numberAt_one] at hversion
    exact hunknown id ⟨hversion, hid⟩
  have htail := h.length_tail
  rw [unpackFront, ← envelopeTail]
  obtain ⟨d, hunread⟩ := unpack_unread hcase
  rw [hunread]
  exact ⟨rfl, by change _ - _ = 12; omega⟩

/-- A well-formed envelope has a known header, and pieces that fill the rest of it. -/
theorem wellformed_iff (h : Complete buf) : Wellformed crc32 buf ↔
    CrcMatches crc32 buf ∧ JZ_MSG_PAYLOAD_HEADER_SIZE ≤ numberAt buf 4 4 ∧
      numberAt buf 10 2 ≤ JZ_MSG_MAX_LCN ∧ (unpackFront buf).self.toOption.isSome := by
  constructor
  · intro hwell
    obtain ⟨id, hid, hfields⟩ := hwell.fields
    exact ⟨hwell.crc, hwell.length_ge, hwell.lcn_le,
      (unpackFront_known h ⟨hwell.version, hid⟩).1.2 ((h.spells_tail hwell.length_ge).2 hfields)⟩
  · rintro ⟨hcrc, hmin, hlcn, hself⟩
    by_cases hknown : ∃ id, Known buf id
    · obtain ⟨id, hknown⟩ := hknown
      exact ⟨hcrc, hmin, hlcn, hknown.version, id, hknown.id,
        (h.spells_tail hmin).1 ((unpackFront_known h hknown).1.1 hself)⟩
    · rw [(unpackFront_unknown h (not_exists.1 hknown)).1] at hself
      cases hself

/-- `r` delivers a message if `P` holds, and reports an error with a diagnostic if not. -/
def Judges (r : Parsed) (P : Prop) : Prop :=
  ((r.isError = false ∧ ∃ m, r.msg = some m) ↔ P) ∧
    (¬ P → r.isError = true ∧ ∃ d, r.msg = some d ∧ d.id = .diagnostic)

theorem judges_message {siz : ℕ} {m : JzMsg} {P : Prop} (hP : P) :
    Judges { siz, msg := some m } P :=
  ⟨iff_of_true ⟨rfl, m, rfl⟩ hP, fun hnot => absurd hP hnot⟩

theorem judges_diagnostic {siz : ℕ} {diagnostic version id : UInt8} {lcn : UInt16} {P : Prop}
    (hP : ¬ P) : Judges
      { siz, msg := some (jzMsgNewDiagnostic diagnostic version id lcn), isError := true } P :=
  ⟨iff_of_false (fun hok => (by cases hok.1)) hP, fun _ => ⟨rfl, _, rfl, rfl⟩⟩

/-- **Acceptance.** Whatever follows a complete envelope, the parser delivers a message
exactly if the envelope is well formed. Otherwise it reports an error with a diagnostic, and
in no case it gives up the stream. -/
theorem parse_delivers_iff (crc32 : List UInt8 → UInt32) (h : Complete buf) :
    ∃ r, jzBufferParseIntoMessage crc32 buf = .ok r ∧ r.isFatal = false ∧
      Judges r (Wellformed crc32 buf) := by
  refine ⟨_, parse_whole h.toWhole h.allowed, openEnvelope_isFatal crc32 buf, ?_⟩
  rw [wellformed_iff h]
  unfold openEnvelope
  by_cases hcrc : CrcMatches crc32 buf
  · rw [if_neg (not_not.2 hcrc)]
    by_cases hmin : numberAt buf 4 4 < JZ_MSG_PAYLOAD_HEADER_SIZE
    · rw [if_pos hmin]
      exact judges_diagnostic fun hw => absurd hmin (not_lt.2 hw.2.1)
    · rw [if_neg hmin]
      by_cases hlcn : numberAt buf 10 2 > JZ_MSG_MAX_LCN
      · rw [if_pos hlcn]
        exact judges_diagnostic fun hw => absurd hlcn (not_lt.2 hw.2.2.1)
      · rw [if_neg hlcn, Unpacked.parsed]
        cases (unpackFront buf).self with
        | ok m => exact judges_message ⟨hcrc, not_lt.1 hmin, not_lt.1 hlcn, rfl⟩
        | error d => exact judges_diagnostic fun hw => (by cases hw.2.2.2)
  · rw [if_pos hcrc]
    exact judges_diagnostic fun hw => absurd hw.1 hcrc

/-- `RR` on channel 5, for the packets before 1. -/
def rrBuffer : List UInt8 :=
  [0x43, 0x56, 0x53, 0x7e, 0, 0, 0, 6, 1, 1, 0, 5, 0, 1, 0, 0, 0, 0, 0, 0]

theorem rrBuffer_complete : Complete rrBuffer :=
  ⟨by decide, by decide, by decide⟩

theorem rrBuffer_wellformed : Wellformed (fun _ => 0) rrBuffer where
  crc := by decide
  length_ge := by decide
  lcn_le := by decide
  version := rfl
  fields := ⟨.rr, rfl, (@spells_numbers [0, 1] [2]).2 rfl⟩

theorem parse_delivers_rr : ∃ r, jzBufferParseIntoMessage (fun _ => 0) rrBuffer = .ok r ∧
    r.isFatal = false ∧ Judges r (Wellformed (fun _ => 0) rrBuffer) :=
  parse_delivers_iff (fun _ => 0) rrBuffer_complete

/-! ### What the parser takes -/

/-- The parser comes to the end of the envelope at the front of `buf`. -/
inductive ReachesEnd (crc32 : List UInt8 → UInt32) (buf : List UInt8) : Prop
  /-- The envelope is rejected for its checksum. -/
  | crc (h : ¬ CrcMatches crc32 buf)
  /-- It is rejected for its length. -/
  | short (h : numberAt buf 4 4 < JZ_MSG_PAYLOAD_HEADER_SIZE)
  /-- It is rejected for its logical channel number. -/
  | lcn (h : numberAt buf 10 2 > JZ_MSG_MAX_LCN)
  /-- It holds a message. -/
  | wellformed (h : Wellformed crc32 buf)
  /-- It is that of a known type, and its pieces break off exactly behind its last byte,
  where the next one, or the bytes that a length announces, should begin. -/
  | breaks {id : MsgId} (hknown : Known buf id)
    (h : Breaks (layout id ++ trailer (JZ_MSG_PADDING_LENGTH (numberAt buf 4 4)))
      (envelopeTail buf) [])

/-- What the parser takes of an envelope that is not rejected before it is decoded. -/
theorem openEnvelope_siz_decoded (hcrc : CrcMatches crc32 buf)
    (hmin : JZ_MSG_PAYLOAD_HEADER_SIZE ≤ numberAt buf 4 4)
    (hlcn : numberAt buf 10 2 ≤ JZ_MSG_MAX_LCN) :
    (openEnvelope crc32 buf).siz = (unpackFront buf).packedSize := by
  rw [openEnvelope, if_neg (not_not.2 hcrc), if_neg (not_lt.2 hmin), if_neg (not_lt.2 hlcn),
    Unpacked.parsed_siz]

/-- An envelope that is not rejected before it is decoded. -/
theorem reachesEnd_decoded (hcrc : CrcMatches crc32 buf)
    (hmin : JZ_MSG_PAYLOAD_HEADER_SIZE ≤ numberAt buf 4 4)
    (hlcn : numberAt buf 10 2 ≤ JZ_MSG_MAX_LCN) :
    ReachesEnd crc32 buf ↔ Wellformed crc32 buf ∨ ∃ id, Known buf id ∧
      Breaks (layout id ++ trailer (JZ_MSG_PADDING_LENGTH (numberAt buf 4 4)))
        (envelopeTail buf) [] := by
  constructor
  · intro hend
    cases hend with
    | crc hbad => exact absurd hcrc hbad
    | short hbad => exact absurd hmin (not_le.2 hbad)
    | lcn hbad => exact absurd hlcn (not_le.2 hbad)
    | wellformed hwell => exact .inl hwell
    | breaks hknown hbreaks => exact .inr ⟨_, hknown, hbreaks⟩
  · rintro (hwell | ⟨id, hknown, hbreaks⟩)
    · exact .wellformed hwell
    · exact .breaks hknown hbreaks

/-- How far the decoder comes. A message of an unknown version or type is left behind its
header, and the rest of its envelope is not empty. -/
theorem packedSize_iff (h : Complete buf) (hcrc : CrcMatches crc32 buf)
    (hmin : JZ_MSG_PAYLOAD_HEADER_SIZE ≤ numberAt buf 4 4)
    (hlcn : numberAt buf 10 2 ≤ JZ_MSG_MAX_LCN) :
    (unpackFront buf).packedSize = envelopeSize (numberAt buf 4 4) ↔
      Wellformed crc32 buf ∨ ∃ id, Known buf id ∧
        Breaks (layout id ++ trailer (JZ_MSG_PADDING_LENGTH (numberAt buf 4 4)))
          (envelopeTail buf) [] := by
  by_cases hknown : ∃ id, Known buf id
  · obtain ⟨id, hknown⟩ := hknown
    rw [(unpackFront_known h hknown).2]
    constructor
    · rintro (hspells | hbreaks)
      · exact .inl ⟨hcrc, hmin, hlcn, hknown.version, id, hknown.id,
          (h.spells_tail hmin).1 hspells⟩
      · exact .inr ⟨id, hknown, hbreaks⟩
    · rintro (hwell | ⟨id', hknown', hbreaks⟩)
      · exact .inl ((unpackFront_known h hknown).1.1 ((wellformed_iff h).1 hwell).2.2.2)
      · obtain rfl := Option.some.inj (hknown.id.symm.trans hknown'.id)
        exact .inr hbreaks
  · rw [(unpackFront_unknown h (not_exists.1 hknown)).2]
    refine iff_of_false ?_ ?_
    · change 12 ≠ 12 + _ + _
      change 4 ≤ _ at hmin
      omega
    · rintro (hwell | ⟨id, hid, -⟩)
      · obtain ⟨id, hid, -⟩ := hwell.fields
        exact hknown ⟨id, hwell.version, hid⟩
      · exact hknown ⟨id, hid⟩

/-- **Resynchronisation.** Whatever follows a complete envelope, the parser takes exactly the
envelope if it comes to its end, and only then. -/
theorem parse_takes_envelope_iff (crc32 : List UInt8 → UInt32) (h : Complete buf) :
    (∃ r, jzBufferParseIntoMessage crc32 buf = .ok r ∧
      r.siz = envelopeSize (numberAt buf 4 4)) ↔ ReachesEnd crc32 buf := by
  have hparse : jzBufferParseIntoMessage crc32 buf = .ok (openEnvelope crc32 buf) :=
    parse_whole h.toWhole h.allowed
  have hsiz : (∃ r, jzBufferParseIntoMessage crc32 buf = .ok r ∧
      r.siz = envelopeSize (numberAt buf 4 4)) ↔
        (openEnvelope crc32 buf).siz = envelopeSize (numberAt buf 4 4) := by
    rw [hparse]
    constructor
    · rintro ⟨r, hr, hsize⟩
      cases hr
      exact hsize
    · intro hsize
      exact ⟨_, rfl, hsize⟩
  rw [hsiz]
  by_cases hcrc : CrcMatches crc32 buf
  swap
  · rw [openEnvelope, if_pos hcrc]
    exact iff_of_true rfl (.crc hcrc)
  by_cases hmin : numberAt buf 4 4 < JZ_MSG_PAYLOAD_HEADER_SIZE
  · rw [openEnvelope, if_neg (not_not.2 hcrc), if_pos hmin]
    exact iff_of_true rfl (.short hmin)
  by_cases hlcn : numberAt buf 10 2 > JZ_MSG_MAX_LCN
  · rw [openEnvelope, if_neg (not_not.2 hcrc), if_neg hmin, if_pos hlcn]
    exact iff_of_true rfl (.lcn hlcn)
  -- From here on the decoder says how far the parser has come.
  rw [openEnvelope_siz_decoded hcrc (not_lt.1 hmin) (not_lt.1 hlcn),
    packedSize_iff h hcrc (not_lt.1 hmin) (not_lt.1 hlcn),
    reachesEnd_decoded hcrc (not_lt.1 hmin) (not_lt.1 hlcn)]

theorem parse_takes_rr : (∃ r, jzBufferParseIntoMessage (fun _ => 0) rrBuffer = .ok r ∧
    r.siz = envelopeSize (numberAt rrBuffer 4 4)) ↔ ReachesEnd (fun _ => 0) rrBuffer :=
  parse_takes_envelope_iff (fun _ => 0) rrBuffer_complete

/-- The same message with another version. -/
def futureBuffer : List UInt8 :=
  [0x43, 0x56, 0x53, 0x7e, 0, 0, 0, 6, 2, 1, 0, 5, 0, 1, 0, 0, 0, 0, 0, 0]

/-- **A stream lost.** Of a message with a version that is not known, the parser takes the
header only. So the good message behind it is not found any more, and the stream is given
up. -/
theorem not_resynchronized : Complete (futureBuffer ++ rrBuffer) ∧
    Wellformed (fun _ => 0) rrBuffer ∧
    ∃ r, jzBufferParseIntoMessage (fun _ => 0) (futureBuffer ++ rrBuffer) = .ok r ∧
      r.isError = true ∧ r.siz ≠ envelopeSize (numberAt (futureBuffer ++ rrBuffer) 4 4) ∧
      jzBufferParseIntoMessage (fun _ => 0) ((futureBuffer ++ rrBuffer).drop r.siz) =
        .ok { isFatal := true } := by
  have hcomplete : Complete (futureBuffer ++ rrBuffer) := ⟨by decide, by decide, by decide⟩
  have hopen : openEnvelope (fun _ => 0) (futureBuffer ++ rrBuffer) =
      { siz := 12, msg := some (jzMsgNewDiagnostic Diag.unknownVersion.code 2 1 5)
        isError := true } := by
    decide
  refine ⟨hcomplete, rrBuffer_wellformed, _, parse_whole hcomplete.toWhole hcomplete.allowed, ?_⟩
  rw [hopen]
  exact ⟨rfl, by decide, parse_unsigned (by decide) (by decide)⟩

end Application10
end Jozabad
