import Jozabad.Application10.Admission
import Jozabad.Application10.Client
import Jozabad.Application10.RoundTrip

/-!
# What the parser hands over

The messages on the queue of a client come out of the parser, and so do the diagnostics that
stand for bad messages. Whatever the bytes of a stream are, such a message has the right
version, and the addresses that the handlers look for (`WellFormed`). `parsedSystem` is the
server under events that the parser can cause.
-/

namespace Jozabad
namespace Application10

open Reader

variable {msg : JzMsg}

/-- The parser delivers `msg` as a valid message. -/
def ParserDelivers (msg : JzMsg) : Prop :=
  ∃ crc32 buf r, jzBufferParseIntoMessage crc32 buf = .ok r ∧ r.msg = some msg ∧ r.isError = false

/-- The parser reports a bad message with `diagnostic`. -/
def ParserReports (diagnostic : JzMsg) : Prop :=
  ∃ crc32 buf r, jzBufferParseIntoMessage crc32 buf = .ok r ∧ r.msg = some diagnostic ∧
    r.isError = true

/-- The messages of the event come out of the parser. -/
def Event.Parsed : Event → Prop
  | .message _ _ msg => ParserDelivers msg
  | .badMessage _ diagnostic => ParserReports diagnostic
  | .connect | .corrupt _ _ | .hangup _ _ | .tick _ _ | .rehash _ _ => True

/-- The server under events that the parser can cause. -/
def parsedSystem : Lts Server Event :=
  serverSystem.restrict fun _ e => e.Parsed

/-! ### Well-formed messages -/

/-- The message has the right version, and the addresses of its type. -/
structure WellFormed (msg : JzMsg) : Prop where
  version : msg.version = 1
  calling : msg.id = .connect → ∃ a, msg.callingAddress = some a
  called : msg.id = .callRequest → ∃ a, msg.calledAddress = some a

theorem returns_getString : getString.Returns fun s => ∃ a, s = some a :=
  Returns.bind fun _ => Returns.bind fun host => Returns.pure ⟨CString.ofBytes host, rfl⟩

theorem returns_getFields (id : MsgId) (lcn : UInt16) :
    (getFields 1 id lcn).Returns WellFormed := by
  -- A string that is read is never the null pointer.
  cases id with
  | connect =>
    exact returns_getString.bind_of fun _ ha => Returns.bind fun _ =>
      Returns.pure ⟨rfl, fun _ => ha, nofun⟩
  | callRequest =>
    exact Returns.bind fun _ => returns_getString.bind_of fun _ hb => Returns.bind fun _ =>
      Returns.bind fun _ => Returns.bind fun _ => Returns.bind fun _ =>
        Returns.pure ⟨rfl, nofun, fun _ => hb⟩
  | data | rr | rnr | callAccepted | clearRequest | clearConfirmation | resetRequest
    | resetConfirmation | connectIndication | disconnect | disconnectIndication | diagnostic
    | directoryRequest | directory | enq | ack | restartRequest | restartConfirmation =>
    repeat' first | exact Returns.pure ⟨rfl, nofun, nofun⟩ | refine Returns.bind fun _ => ?_

/-- What all fields have in common, a decoded message has. -/
theorem returns_getTail {P : JzMsg → Prop} {lcn : UInt16}
    (hfields : ∀ id, (getFields 1 id lcn).Returns P) (version id : UInt8) (padding : ℕ) :
    (getTail version id lcn padding).Returns P := by
  intro input rest m h
  unfold getTail at h
  by_cases hversion : version = 1
  · rw [if_neg (not_not.2 hversion)] at h
    cases hid : MsgId.ofCode id.toNat with
    | none =>
      rw [hid] at h
      cases h
    | some id =>
      rw [hid] at h
      obtain ⟨self, afterFields, hself, h⟩ := on_bind_ok h
      obtain ⟨_, afterPadding, -, h⟩ := on_bind_ok h
      obtain ⟨_, afterCrc, -, h⟩ := on_bind_ok h
      obtain ⟨rfl, -⟩ := on_pure_ok h
      rw [hversion] at hself
      exact hfields id hself
  · rw [if_pos hversion] at h
    cases h

theorem property_of_unpack {P : JzMsg → Prop} {version id : UInt8} {lcn : UInt16}
    {padding ceiling : ℕ} {tail : List UInt8} {m : JzMsg}
    (hfields : ∀ id, (getFields 1 id lcn).Returns P)
    (h : (unpack version id lcn padding ceiling tail).self = .ok m) : P m := by
  unfold unpack at h
  cases hread : (getTail version id lcn padding).on tail with
  | mk self left =>
    rw [hread] at h
    cases self with
    | error invalidity => cases h
    | ok self =>
      have hself : self = m := by
        simp only at h
        split_ifs at h
        exact Except.ok.inj h
      exact hself ▸ returns_getTail hfields _ _ _ hread

theorem property_of_newFromData {P : JzMsg → Prop} {buf : List UInt8} {u : Unpacked} {m : JzMsg}
    (hfields : ∀ id lcn, (getFields 1 id lcn).Returns P) (hu : jzMsgNewFromData buf = .ok u)
    (hself : u.self = .ok m) : P m := by
  unfold jzMsgNewFromData at hu
  obtain ⟨_, -, hu⟩ := bind_eq_ok hu
  obtain ⟨_, -, hu⟩ := bind_eq_ok hu
  simp only at hu
  split_ifs at hu
  · cases hu
  · cases hu
    exact property_of_unpack (fun id => hfields id _) hself

/-- **What the parser delivers** is well formed. -/
theorem ParserDelivers.wellFormed (h : ParserDelivers msg) : WellFormed msg := by
  obtain ⟨crc32, buf, r, hparse, hmsg, herror⟩ := h
  obtain ⟨-, u, hu, hself⟩ := parse_unpacks hparse hmsg herror
  exact property_of_newFromData returns_getFields hu hself

/-- A message that fits into an envelope, and that is received as it is, can be delivered. -/
theorem ParserDelivers.of_fits (hfits : msg.Fits)
    (hsize : (putBody msg).length ≤ JZ_MSG_MAX_PAYLOAD_LENGTH) (hversion : msg.version = 1)
    (hlcn : msg.lcn.toNat ≤ JZ_MSG_MAX_LCN) (hreceived : msg.received = msg) :
    ParserDelivers msg :=
  ⟨fun _ => 0, _, _, parse_envelope rfl hsize [] rfl hfits hversion hlcn,
    congrArg some hreceived, rfl⟩

end Application10
end Jozabad
