import Jozabad.Application10.RoundTrip

/-!
# What the parser accepts

A message that the parser yields without an error has a logical channel number in range,
and its own encoding is no longer than the buffer in which it was found. The bound goes
through the fields: each macro takes at least the bytes that its value needs
(`Reader.Takes`). It can take more, since a string ends at the first NUL in it.
-/

namespace Jozabad
namespace Application10

open Reader

/-- The length of an envelope around a body of `n` bytes. -/
def envelopeSize (n : ℕ) : ℕ :=
  JZ_MSG_ENVELOPE_SIZE + n + JZ_MSG_PADDING_LENGTH n

/-- A longer body has no shorter envelope. -/
theorem envelopeSize_mono {n k : ℕ} (h : n ≤ k) : envelopeSize n ≤ envelopeSize k := by
  unfold envelopeSize JZ_MSG_PADDING_LENGTH
  split_ifs <;> omega

/-- The body length of a message that can be encoded. -/
def bodySize (m : JzMsg) : ℕ :=
  (frameSize m).toOption.getD 0

theorem bodySize_eq {m : JzMsg} {n : ℕ} (h : frameSize m = .ok n) : bodySize m = n := by
  rw [bodySize, h]
  rfl

/-! ### Fields -/

theorem takes_getNumber1 : getNumber1.Takes fun _ => 1 :=
  (takes_getNumber Diag.packetTooShort 1).bind fun _ => Takes.pure rfl

theorem takes_getNumber2 : getNumber2.Takes fun _ => 2 :=
  (takes_getNumber Diag.packetTooShort 2).bind fun _ => Takes.pure rfl

theorem takes_getString : getString.Takes addressSize := by
  intro input rest a h
  obtain ⟨n, mid, hn, h⟩ := on_bind_ok h
  obtain ⟨bs, mid', hbs, h⟩ := on_bind_ok h
  obtain ⟨rfl, rfl⟩ := on_pure_ok h
  have hnumber : mid.length + 1 ≤ input.length := takes_getNumber _ 1 hn
  obtain ⟨hlen, hbytes⟩ := on_getBytes_ok _ hbs
  have hstring : addressSize (some (CString.ofBytes bs)) ≤ 1 + bs.length :=
    Nat.add_le_add_left (List.takeWhile_prefix _).length_le 1
  omega

theorem takes_getRaw : getRaw.Takes rawSize := by
  intro input rest data h
  obtain ⟨n, mid, hn, h⟩ := on_bind_ok h
  have hnumber : mid.length + 2 ≤ input.length := takes_getNumber _ 2 hn
  change (if mid.length < n then (Except.error Diag.packetTooShort, mid) else
    if n > RAW_MAX then (Except.error Diag.ok, mid) else
      (Except.ok (mid.take n), mid.drop n)) = _ at h
  split_ifs at h with hlen hmax
  · cases h
  · cases h
  · cases h
    change (mid.drop n).length + (2 + (mid.take n).length) ≤ input.length
    rw [List.length_take, List.length_drop]
    omega

theorem takes_getPadding (n : ℕ) : (getPadding n).Takes fun _ => n := by
  induction n with
  | zero => exact Takes.pure rfl
  | succ n ih => exact takes_getNumber1.bind fun _ => ih

/-! ### Messages -/

/-- The fields of a message take at least what its body has behind the header. -/
theorem takes_getFields (version : UInt8) (id : MsgId) (lcn : UInt16) :
    (getFields version id lcn).Takes fun m => bodySize m - JZ_MSG_PAYLOAD_HEADER_SIZE := by
  cases id with
  | data =>
    refine takes_getNumber1.bind fun q => takes_getNumber2.bind fun pr =>
      takes_getNumber2.bind fun ps => takes_getRaw.bind fun data => Takes.pure ?_
    -- What the fields take is what the size of the body counts.
    change 4 + 1 + 2 + 2 + rawSize data - 4 - 1 - 2 - 2 - rawSize data = 0
    omega
  | rr | rnr => exact takes_getNumber2.bind fun pr => Takes.pure rfl
  | callRequest | callAccepted =>
    refine takes_getString.bind fun a => takes_getString.bind fun b =>
      takes_getNumber1.bind fun packet => takes_getNumber2.bind fun window =>
        takes_getNumber1.bind fun tput => takes_getRaw.bind fun data => Takes.pure ?_
    change 4 + addressSize a + addressSize b + 1 + 2 + 1 + rawSize data
      - 4 - addressSize a - addressSize b - 1 - 2 - 1 - rawSize data = 0
    omega
  | clearRequest | resetRequest | restartRequest =>
    exact takes_getNumber1.bind fun _ => takes_getNumber1.bind fun _ => Takes.pure rfl
  | connect =>
    refine takes_getString.bind fun a => takes_getNumber1.bind fun iodir => Takes.pure ?_
    change 4 + addressSize a + 1 - 4 - addressSize a - 1 = 0
    omega
  | diagnostic =>
    exact takes_getNumber1.bind fun _ => takes_getNumber1.bind fun _ =>
      takes_getNumber1.bind fun _ => takes_getNumber2.bind fun _ => Takes.pure rfl
  -- These have no fields.
  | clearConfirmation | resetConfirmation | restartConfirmation | connectIndication | disconnect
    | disconnectIndication | directoryRequest | directory | enq | ack => exact Takes.pure rfl

/-- The fields are put behind the header that was read before them. -/
theorem getFields_lcn (version : UInt8) (id : MsgId) (lcn : UInt16) :
    (getFields version id lcn).Returns fun m => m.lcn = lcn := by
  cases id <;> repeat' first | exact Returns.pure rfl | refine Returns.bind fun _ => ?_

/-- **What a decoded message has taken** of the bytes behind the logical channel number. -/
theorem on_getTail_ok {version id : UInt8} {lcn : UInt16} {padding : ℕ}
    {input rest : List UInt8} {m : JzMsg}
    (h : (getTail version id lcn padding).on input = (.ok m, rest)) :
    m.lcn = lcn ∧ rest.length + (bodySize m - JZ_MSG_PAYLOAD_HEADER_SIZE) + padding + 4 ≤
      input.length := by
  unfold getTail at h
  by_cases hversion : version = 1
  · rw [if_neg (not_not.2 hversion)] at h
    cases hid : MsgId.ofCode id.toNat with
    | none =>
      rw [hid] at h
      cases h
    | some id =>
      rw [hid] at h
      obtain ⟨self, afterFields, hfields, h⟩ := on_bind_ok h
      obtain ⟨_, afterPadding, hpadding, h⟩ := on_bind_ok h
      obtain ⟨_, afterCrc, hcrc, h⟩ := on_bind_ok h
      obtain ⟨rfl, rfl⟩ := on_pure_ok h
      -- The fields, the padding and the CRC, one after the other.
      have h₁ : afterFields.length + (bodySize self - JZ_MSG_PAYLOAD_HEADER_SIZE) ≤ _ :=
        takes_getFields _ _ _ hfields
      have h₂ : afterPadding.length + padding ≤ _ := takes_getPadding padding hpadding
      have h₃ : afterCrc.length + 4 ≤ _ := takes_getNumber _ 4 hcrc
      exact ⟨getFields_lcn _ _ _ hfields, by omega⟩
  · rw [if_pos hversion] at h
    cases h

theorem unpack_ok {version id : UInt8} {lcn : UInt16} {padding ceiling : ℕ}
    {tail : List UInt8} {m : JzMsg}
    (h : (unpack version id lcn padding ceiling tail).self = .ok m) :
    m.lcn = lcn ∧ bodySize m + padding ≤ tail.length := by
  unfold unpack at h
  cases hread : (getTail version id lcn padding).on tail with
  | mk self left =>
    rw [hread] at h
    cases self with
    | error invalidity => cases h
    | ok self =>
      obtain ⟨hlcn, htaken⟩ := on_getTail_ok hread
      have hself : self = m := by
        simp only at h
        split_ifs at h
        exact Except.ok.inj h
      rw [hself] at hlcn htaken
      refine ⟨hlcn, ?_⟩
      change left.length + (bodySize m - 4) + padding + 4 ≤ tail.length at htaken
      omega

/-! ### The parser -/

/-- A valid message is no longer than the envelope that it was taken out of. -/
theorem newFromData_ok {buf : List UInt8} {u : Unpacked} {m : JzMsg}
    (h : jzMsgNewFromData buf = .ok u) (hm : u.self = .ok m) :
    m.lcn.toNat ≤ numberAt buf 10 2 ∧ envelopeSize (bodySize m) ≤ buf.length := by
  unfold jzMsgNewFromData at h
  obtain ⟨_, hlen, h⟩ := bind_eq_ok h
  obtain ⟨_, hsig, h⟩ := bind_eq_ok h
  simp only at h
  split_ifs at h with hceiling
  · cases h
  · cases h
    obtain ⟨hlcn, hbody⟩ := unpack_ok hm
    -- The reader is given no more than the body and its padding.
    have htail : (bytesAt buf 12 (JZ_MSG_ENVELOPE_SIZE + numberAt buf 4 4 +
        JZ_MSG_PADDING_LENGTH (numberAt buf 4 4) - 12)).length ≤
          numberAt buf 4 4 + JZ_MSG_PADDING_LENGTH (numberAt buf 4 4) := by
      rw [bytesAt, List.length_take]
      refine le_trans (min_le_left _ _) ?_
      change 12 + numberAt buf 4 4 + _ - 12 ≤ _
      omega
    constructor
    · rw [hlcn, UInt16.toNat_ofNat']
      exact Nat.mod_le _ _
    · exact le_trans (envelopeSize_mono (by omega)) (not_lt.1 hceiling)

/-- A message without an error has been decoded from the buffer, after the logical channel
number was found to be in range. -/
theorem parse_unpacks {crc32 : List UInt8 → UInt32} {buf : List UInt8} {r : Parsed} {m : JzMsg}
    (h : jzBufferParseIntoMessage crc32 buf = .ok r) (hmsg : r.msg = some m)
    (herror : r.isError = false) :
    numberAt buf 10 2 ≤ JZ_MSG_MAX_LCN ∧ ∃ u, jzMsgNewFromData buf = .ok u ∧ u.self = .ok m := by
  unfold jzBufferParseIntoMessage at h
  obtain ⟨_, hlen, h⟩ := bind_eq_ok h
  split at h
  · -- not enough for an envelope
    cases h
    cases hmsg
  split at h
  · -- no signature
    cases h
    cases hmsg
  obtain ⟨contains, hcontains, h⟩ := bind_eq_ok h
  split at h
  · -- not enough for this envelope
    cases h
    cases hmsg
  -- Three checks of the envelope answer with a diagnostic.
  obtain ⟨valid, hvalid, h⟩ := bind_eq_ok h
  split at h
  · obtain ⟨siz, -, h⟩ := bind_eq_ok h
    cases h
    cases herror
  obtain ⟨bodyLength, hbody, h⟩ := bind_eq_ok h
  split at h
  · obtain ⟨siz, -, h⟩ := bind_eq_ok h
    cases h
    cases herror
  obtain ⟨lcn, hlcn, h⟩ := bind_eq_ok h
  split at h
  · obtain ⟨siz, -, h⟩ := bind_eq_ok h
    cases h
    cases herror
  case isFalse hrange =>
    obtain ⟨u, hu, h⟩ := bind_eq_ok h
    -- The number that was checked is the one that is read.
    have hlcn' : numberAt buf 10 2 = lcn := by
      obtain ⟨_, -, hlcn⟩ := bind_eq_ok hlcn
      exact Except.ok.inj hlcn
    cases hself : u.self with
    | error invalidity =>
      rw [hself] at h
      cases h
      cases herror
    | ok self =>
      rw [hself] at h
      cases h
      cases hmsg
      exact ⟨hlcn' ▸ not_lt.1 hrange, u, hu, hself⟩

/-- **What the parser accepts.** A message without an error has a logical channel number
in range, and its own encoding would fit into the buffer. -/
theorem parse_accepts {crc32 : List UInt8 → UInt32} {buf : List UInt8} {r : Parsed} {m : JzMsg}
    (h : jzBufferParseIntoMessage crc32 buf = .ok r) (hmsg : r.msg = some m)
    (herror : r.isError = false) :
    m.lcn.toNat ≤ JZ_MSG_MAX_LCN ∧ envelopeSize (bodySize m) ≤ buf.length := by
  obtain ⟨hrange, u, hu, hself⟩ := parse_unpacks h hmsg herror
  obtain ⟨hle, hsize⟩ := newFromData_ok hu hself
  exact ⟨le_trans hle hrange, hsize⟩

end Application10
end Jozabad
