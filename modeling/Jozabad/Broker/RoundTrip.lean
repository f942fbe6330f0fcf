import Jozabad.Broker.Directory

/-!
# What is sent is received (`joza_msg.c`)

The receiver takes from the frames of a message the fields that its type has
(`JozaMsg.onWire`), whatever follows them (`recv_send`). What it has received is such a
message already, so that it can be sent on without a loss (`recv_forward`).

The broker builds its messages from what it has received and checked. Whatever it sends,
other than a directory, is received as it was sent (`sent_received`).
-/

namespace Jozabad
namespace Broker

open Reader JozaMsg

variable {b b' : JozaPoll} {m o : JozaMsg} {a : Frame} {outs : List JozaMsg}

/-! ### Messages on the wire -/

/-- The fields that are on the wire for the type of a message. -/
def JozaMsg.onWire (m : JozaMsg) (address : Frame) : JozaMsg :=
  match m.id with
  | .data => { address, id := .data, q := m.q, pr := m.pr, ps := m.ps, data := m.data }
  | .rr => { address, id := .rr, pr := m.pr }
  | .rnr => { address, id := .rnr, pr := m.pr }
  | .callRequest =>
    { address, id := .callRequest, callingAddress := m.callingAddress
      calledAddress := m.calledAddress, packet := m.packet, window := m.window
      throughput := m.throughput, data := m.data }
  | .callAccepted =>
    { address, id := .callAccepted, callingAddress := m.callingAddress
      calledAddress := m.calledAddress, packet := m.packet, window := m.window
      throughput := m.throughput, data := m.data }
  | .clearRequest => { address, id := .clearRequest, cause := m.cause, diagnostic := m.diagnostic }
  | .clearConfirmation => { address, id := .clearConfirmation }
  | .resetRequest => { address, id := .resetRequest, cause := m.cause, diagnostic := m.diagnostic }
  | .resetConfirmation => { address, id := .resetConfirmation }
  | .connect =>
    { address, id := .connect, callingAddress := m.callingAddress, hostName := m.hostName
      directionality := m.directionality }
  | .connectIndication => { address, id := .connectIndication }
  | .disconnect => { address, id := .disconnect }
  | .disconnectIndication => { address, id := .disconnectIndication }
  | .diagnostic => { address, id := .diagnostic, cause := m.cause, diagnostic := m.diagnostic }
  | .directoryRequest => { address, id := .directoryRequest }
  | .directory => { address, id := .directory, workers := m.workers }
  | .enq => { address, id := .enq }
  | .ack => { address, id := .ack }

/-- The strings of a message can be told by one byte each, and its directory is one. -/
structure JozaMsg.WireFits (m : JozaMsg) : Prop where
  calling : m.callingAddress.length ≤ STRING_MAX
  called : m.calledAddress.length ≤ STRING_MAX
  host : m.hostName.length ≤ STRING_MAX
  count : m.workers.length ≤ 255
  entries : ∀ e ∈ m.workers, Fits e ∧ 61 ∉ e.1.bytes
  keys : (m.workers.map Prod.fst).Nodup

/-- The types with a second frame. -/
def MsgId.HasData (id : MsgId) : Prop :=
  id = .data ∨ id = .callRequest ∨ id = .callAccepted

/-! ### The round trip -/

theorem reads_getNumber1 (x : UInt8) : getNumber1.Reads (putNumber1 x) x := by
  have h := (reads_getNumber RecvError.malformed (n := 1) x.toNat_lt).map (f := UInt8.ofNat)
  rwa [UInt8.ofNat_toNat] at h

theorem reads_getNumber2 (x : UInt16) : getNumber2.Reads (putNumber2 x) x := by
  have h := (reads_getNumber RecvError.malformed (n := 2) x.toNat_lt).map (f := UInt16.ofNat)
  rwa [UInt16.ofNat_toNat] at h

/-- The directory of a message that fits is taken as it is. -/
theorem reads_directory (h : m.WireFits) :
    (getWorkers m.workers.length []).Reads (m.workers.flatMap sWorkersWrite) m.workers := by
  have hread := @reads_getWorkers _ [] fun e he => (h.entries e he).1
  have hreceived : m.workers.map received = m.workers := by
    refine (List.map_congr_left fun e he => ?_).trans (List.map_id _)
    exact (h.entries e he).1.received_eq (h.entries e he).2
  rw [hreceived, foldl_zhashInsert (by simpa using h.keys)] at hread
  exact hread

/-- **Every type's fields are read in the order in which they are written.** -/
theorem reads_getFields (h : m.WireFits) {more : List Frame}
    (hmore : m.id.HasData → ∃ rest, more = m.data :: rest) :
    (getFields a m.id more).Reads (putFields m) (m.onWire a) := by
  have hdata (hid : m.id.HasData) : (rcvData more).Reads [] m.data := by
    obtain ⟨rest, rfl⟩ := hmore hid
    exact Reads.pure m.data
  unfold getFields putFields JozaMsg.onWire
  cases hid : m.id with
  | data =>
    exact (reads_getNumber1 _).bind ((reads_getNumber2 _).bind ((reads_getNumber2 _).bind_nil
      (hdata (.inl hid)).map))
  | rr | rnr => exact (reads_getNumber2 _).map
  | callRequest =>
    exact (reads_getString h.calling).bind ((reads_getString h.called).bind
      ((reads_getNumber1 _).bind ((reads_getNumber2 _).bind ((reads_getNumber1 _).bind_nil
        (hdata (.inr (.inl hid))).map))))
  | callAccepted =>
    exact (reads_getString h.calling).bind ((reads_getString h.called).bind
      ((reads_getNumber1 _).bind ((reads_getNumber2 _).bind ((reads_getNumber1 _).bind_nil
        (hdata (.inr (.inr hid))).map))))
  | clearRequest | resetRequest | diagnostic =>
    exact (reads_getNumber1 _).bind (reads_getNumber1 _).map
  | connect =>
    -- The protocol and the version are the right ones.
    refine (reads_getString (s := PROTOCOL) (by decide)).bind ?_
    refine (reads_getNumber1 JOZA_MSG_VERSION).bind ?_
    exact (reads_getString h.calling).bind ((reads_getString h.host).bind (reads_getNumber1 _).map)
  | directory =>
    exact (reads_getNumber _ (Nat.lt_succ_of_le h.count)).bind (reads_directory h).map
  -- These have no fields.
  | clearConfirmation | resetConfirmation | connectIndication | disconnect | disconnectIndication
    | directoryRequest | enq | ack => exact Reads.pure _

/-- **What is sent is received**, with the fields of its type. What stands in the frames
behind it is not looked at. -/
theorem recv_send (h : m.WireFits) (a : Frame) (more : List Frame) :
    jozaMsgRecv a (jozaMsgSend m ++ more) = .ok (m.onWire a) := by
  have hframes : ∃ rest, jozaMsgSend m ++ more =
      (putNumber 2 SIGNATURE ++ (putNumber 1 m.id.code ++ putFields m)) :: rest ∧
        (m.id.HasData → ∃ rest', rest = m.data :: rest') := by
    unfold jozaMsgSend
    cases hid : m.id
    case data | callRequest | callAccepted => exact ⟨m.data :: more, rfl, fun _ => ⟨more, rfl⟩⟩
    all_goals
      refine ⟨more, rfl, fun hdata => ?_⟩
      rcases hdata with h | h | h <;> cases h
  obtain ⟨rest, heq, hmore⟩ := hframes
  have hcode : m.id.code < 256 ^ 1 := by
    cases m.id <;> decide
  have hmsg : (getMsg a rest).Reads (putNumber 2 SIGNATURE ++ (putNumber 1 m.id.code ++
      putFields m)) (m.onWire a) := by
    refine (reads_getNumber _ (by decide)).bind ?_
    rw [if_neg (not_not.2 rfl)]
    refine (reads_getNumber _ hcode).bind ?_
    rw [MsgId.ofCode_code]
    exact reads_getFields h hmore
  have hon := hmsg []
  rw [List.append_nil] at hon
  rw [heq, jozaMsgRecv, hon]

/-! ### What is received -/

/-- A message that has nothing but the fields of its type, and strings that can be told. -/
structure JozaMsg.Clean (m : JozaMsg) : Prop where
  onWire : m.onWire m.address = m
  fits : m.id ≠ .directory → m.WireFits

theorem JozaMsg.onWire_address (m : JozaMsg) (a a' : Frame) :
    m.onWire a' = { m.onWire a with address := a' } := by
  unfold JozaMsg.onWire
  cases m.id <;> rfl

/-- A clean message can be sent and received. -/
theorem JozaMsg.Clean.recv (h : m.Clean) (hid : m.id ≠ .directory) (a : Frame)
    (more : List Frame) :
    jozaMsgRecv a (jozaMsgSend m ++ more) = .ok { m with address := a } := by
  rw [recv_send (h.fits hid), m.onWire_address m.address a, h.onWire]

/-- Messages without strings fit. -/
theorem JozaMsg.WireFits.of_empty (hcalling : m.callingAddress.length ≤ STRING_MAX)
    (hcalled : m.calledAddress.length ≤ STRING_MAX) (hhost : m.hostName.length ≤ STRING_MAX)
    (hworkers : m.workers = []) : m.WireFits where
  calling := hcalling
  called := hcalled
  host := hhost
  count := by simp [hworkers]
  entries := by simp [hworkers]
  keys := by simp [hworkers]

theorem JozaMsg.Clean.of_noStrings (honWire : m.onWire m.address = m)
    (hcalling : m.callingAddress = .empty) (hcalled : m.calledAddress = .empty)
    (hhost : m.hostName = .empty) (hworkers : m.id ≠ .directory → m.workers = []) : m.Clean where
  onWire := honWire
  fits hid := .of_empty (by simp [hcalling, CString.length, CString.empty])
    (by simp [hcalled, CString.length, CString.empty])
    (by simp [hhost, CString.length, CString.empty]) (hworkers hid)

theorem returns_getString : getString.Returns fun s => s.length ≤ STRING_MAX := by
  intro input rest s h
  obtain ⟨n, mid, hn, h⟩ := on_bind_ok h
  obtain ⟨bs, mid', hbs, h⟩ := on_bind_ok h
  obtain ⟨rfl, rfl⟩ := on_pure_ok h
  obtain ⟨len, mid'', hlen, hn⟩ := on_bind_ok hn
  obtain ⟨rfl, -⟩ := on_pure_ok hn
  -- A length of one byte is at most 255, and the string ends at the first NUL.
  have hmax : toNumber len < 256 ^ 1 := (on_getBytes_ok _ hlen).1 ▸ toNumber_lt len
  have hbytes := (on_getBytes_ok _ hbs).1
  have hle : (CString.ofBytes bs).length ≤ bs.length := (List.takeWhile_prefix _).length_le
  rw [hbytes] at hle
  exact le_trans hle (Nat.le_of_lt_succ hmax)

theorem returns_throw {ε α : Type} {P : α → Prop} (e : ε) :
    (throw e : Reader ε α).Returns P := by
  intro input rest x h
  cases h

/-- The receiver returns clean messages. -/
theorem returns_getFields (a : Frame) (id : MsgId) (more : List Frame) :
    (getFields a id more).Returns fun m => m.Clean ∧ m.address = a := by
  have hplain {m : JozaMsg} (honWire : m.onWire m.address = m)
      (hcalling : m.callingAddress = .empty) (hcalled : m.calledAddress = .empty)
      (hhost : m.hostName = .empty) (hworkers : m.id ≠ .directory → m.workers = [])
      (ha : m.address = a) :
      (pure m : Reader RecvError JozaMsg).Returns fun m => m.Clean ∧ m.address = a :=
    .pure ⟨.of_noStrings honWire hcalling hcalled hhost hworkers, ha⟩
  cases id with
  | data =>
    exact .bind fun _ => .bind fun _ => .bind fun _ => .bind fun _ =>
      hplain rfl rfl rfl rfl (fun _ => rfl) rfl
  | rr | rnr => exact .bind fun _ => hplain rfl rfl rfl rfl (fun _ => rfl) rfl
  | callRequest | callAccepted =>
    refine .bind_of returns_getString fun calling hcalling => ?_
    refine .bind_of returns_getString fun called hcalled => ?_
    exact .bind fun _ => .bind fun _ => .bind fun _ => .bind fun _ => .pure
      ⟨⟨rfl, fun _ => .of_empty hcalling hcalled (Nat.zero_le _) rfl⟩, rfl⟩
  | clearRequest | resetRequest | diagnostic =>
    exact .bind fun _ => .bind fun _ => hplain rfl rfl rfl rfl (fun _ => rfl) rfl
  | connect =>
    have hfields : (do
        let callingAddress ← getString
        let hostName ← getString
        let directionality ← getNumber1
        return { address := a, id := .connect, callingAddress, hostName, directionality }
          : Reader RecvError JozaMsg).Returns fun m => m.Clean ∧ m.address = a := by
      refine .bind_of returns_getString fun calling hcalling => ?_
      refine .bind_of returns_getString fun host hhost => ?_
      exact .bind fun _ => .pure
        ⟨⟨rfl, fun _ => .of_empty hcalling (Nat.zero_le _) hhost rfl⟩, rfl⟩
    refine .bind fun protocol => ?_
    by_cases hprotocol : protocol = PROTOCOL
    · rw [if_neg (not_not.2 hprotocol)]
      refine .bind fun version => ?_
      by_cases hversion : version = JOZA_MSG_VERSION
      · rw [if_neg (not_not.2 hversion)]
        exact hfields
      · rw [if_pos hversion]
        exact .bind_of (Q := fun _ => False) (returns_throw _) fun _ h => h.elim
    · rw [if_pos hprotocol]
      exact .bind_of (Q := fun _ => False) (returns_throw _) fun _ h => h.elim
  | directory =>
    exact .bind fun _ => .bind fun _ => hplain rfl rfl rfl rfl (fun h => absurd rfl h) rfl
  | clearConfirmation | resetConfirmation | connectIndication | disconnect | disconnectIndication
    | directoryRequest | enq | ack => exact hplain rfl rfl rfl rfl (fun _ => rfl) rfl

theorem recv_clean {frames : List Frame} (h : jozaMsgRecv a frames = .ok m) :
    m.Clean ∧ m.address = a := by
  cases frames with
  | nil => cases h
  | cons frame more =>
    have hmsg : (getMsg a more).Returns fun m => m.Clean ∧ m.address = a := by
      refine .bind fun signature => ?_
      by_cases hsignature : signature = SIGNATURE
      · rw [if_neg (not_not.2 hsignature)]
        refine .bind fun code => ?_
        cases MsgId.ofCode code with
        | none => exact returns_throw _
        | some id => exact returns_getFields a id more
      · rw [if_pos hsignature]
        exact .bind_of (Q := fun _ => False) (returns_throw _) fun _ h => h.elim
    exact hmsg (Prod.ext h rfl)

/-- The addresses of a call that the checks let through. -/
theorem callAddresses_checked (h : prevalidateMessage m = .unspecified)
    (hid : m.id = .callRequest ∨ m.id = .callAccepted) :
    m.callingAddress.length ≤ NAME_LEN ∧ m.calledAddress.length ≤ NAME_LEN := by
  have hcalling := objections_eq_none h (objectCallingAddress m) (by simp [objections])
  have hcalled := objections_eq_none h (objectCall m) (by simp [objections])
  unfold objectCallingAddress at hcalling
  rw [if_pos (hid.imp_right .inl)] at hcalling
  unfold objectCall at hcalled
  rw [if_pos hid] at hcalled
  constructor
  · split_ifs at hcalling with hshort hlong
    simp only [CString.nlength] at hlong
    omega
  · split_ifs at hcalled with hshort hlong
    simp only [CString.nlength] at hlong
    omega

/-- The strings of a call that the checks let through can be told. -/
theorem clean_call (h : prevalidateMessage m = .unspecified)
    (hid : m.id = .callRequest ∨ m.id = .callAccepted) (honWire : o.onWire o.address = o)
    (hcalling : o.callingAddress = m.callingAddress) (hcalled : o.calledAddress = m.calledAddress)
    (hhost : o.hostName = .empty) (hworkers : o.workers = []) : o.Clean := by
  have haddresses := callAddresses_checked h hid
  have hmax : NAME_LEN ≤ STRING_MAX := by decide
  refine ⟨honWire, fun _ => .of_empty ?_ ?_ ?_ hworkers⟩
  · rw [hcalling]
    exact le_trans haddresses.1 hmax
  · rw [hcalled]
    exact le_trans haddresses.2 hmax
  · rw [hhost]
    exact Nat.zero_le _

/-- A dispatch sends clean messages. -/
theorem Effect.clean {c c' : Channel} {sock : Sock} {isY : Bool}
    (h : Effect c sock m isY c' outs) (hpre : prevalidateMessage m = .unspecified) :
    ∀ o ∈ outs, o.Clean := by
  intro o ho
  cases h with
  | discard => cases ho
  | accepted _ hid =>
    obtain rfl := List.mem_singleton.1 ho
    exact clean_call hpre (.inr hid) rfl rfl rfl rfl rfl
  | reset | clear | disconnectFailed =>
    rcases List.mem_pair.1 ho with rfl | rfl <;>
      exact .of_noStrings rfl rfl rfl rfl fun _ => rfl
  | disconnect | refused | collision | clearRequested | clearConfirmed | data | rr | rnr
      | resetRequested | resetConfirmed =>
    obtain rfl := List.mem_singleton.1 ho
    exact .of_noStrings rfl rfl rfl rfl fun _ => rfl

/-- A received message makes the broker send clean messages. -/
theorem sProcess_clean {env : Env} (h : sProcess b m env = .ok (b', outs)) :
    ∀ o ∈ outs, o.Clean := by
  intro o ho
  cases sProcess_outcome h with
  | call hpre hcall hdisp | closed hpre hcall hdisp =>
    exact (channelDispatch_effect hdisp).clean hpre o ho
  | stray | left | ignored | unknown => cases ho
  | callPlaced hpre hplace =>
    obtain rfl := List.mem_singleton.1 ho
    exact clean_call hpre (.inl hplace.callRequest) rfl rfl rfl rfl rfl
  | directory =>
    obtain rfl := List.mem_singleton.1 ho
    exact .of_noStrings rfl rfl rfl rfl fun hid => absurd rfl hid
  | malformed | callRefused | connectRefused | connected =>
    obtain rfl := List.mem_singleton.1 ho
    exact .of_noStrings rfl rfl rfl rfl fun _ => rfl

theorem prevalidate_disconnect : prevalidateMessage { id := .disconnect } = .unspecified := by
  decide

theorem sDisconnectIdleChannel_clean {key : ℕ} {w : Worker} {v : Visit}
    (h : sDisconnectIdleChannel b key w v = .ok (b', outs)) : ∀ o ∈ outs, o.Clean := by
  unfold sDisconnectIdleChannel at h
  cases hc : b.channels.get? w.lcn.toNat with
  | none =>
    rw [hc] at h
    cases h
  | some c =>
    rw [hc] at h
    obtain ⟨⟨c', outs'⟩, hdisp, h⟩ := bind_eq_ok h
    have hclean := (channelDispatch_effect hdisp).clean prevalidate_disconnect
    simp only at h
    split_ifs at h
    · cases hother : workersTableLookupOther b.workers key w with
      | none =>
        rw [hother] at h
        cases h
      | some e =>
        rw [hother] at h
        cases h
        exact hclean
    · cases h
      exact hclean

theorem sPingWorker_clean {key : ℕ} {w : Worker} {v : Visit} {delete : Bool}
    (h : sPingWorker b key w v = .ok (b', outs, delete)) : ∀ o ∈ outs, o.Clean := by
  unfold sPingWorker at h
  split_ifs at h
  · cases hrole : w.role with
    | ready =>
      rw [hrole] at h
      cases h
      exact fun o ho => absurd ho List.not_mem_nil
    | xCaller | yCallee =>
      rw [hrole] at h
      obtain ⟨⟨b₁, outs₁⟩, hdisc, h⟩ := bind_eq_ok h
      cases h
      exact sDisconnectIdleChannel_clean hdisc
  · cases h
    intro o ho
    obtain rfl := List.mem_singleton.1 ho
    exact .of_noStrings rfl rfl rfl rfl fun _ => rfl
  · cases h
    exact fun o ho => absurd ho List.not_mem_nil

theorem sPingWorkers_clean {visit : ℕ → Visit} {keys : List ℕ}
    (h : sPingWorkers visit keys b = .ok (b', outs)) : ∀ o ∈ outs, o.Clean := by
  induction keys generalizing b outs with
  | nil =>
    cases h
    exact fun o ho => absurd ho List.not_mem_nil
  | cons key keys ih =>
    rw [sPingWorkers] at h
    cases hw : b.workers.get? key with
    | none =>
      rw [hw] at h
      exact ih h
    | some w =>
      rw [hw] at h
      obtain ⟨⟨b₁, outs₁, delete⟩, hworker, h⟩ := bind_eq_ok h
      obtain ⟨⟨b₂, outs₂⟩, hrest, h⟩ := bind_eq_ok h
      cases h
      intro o ho
      rcases List.mem_append.1 ho with ho | ho
      · exact sPingWorker_clean hworker o ho
      · exact ih hrest o ho

/-- What is sent in a step. -/
def Event.sent : Event → List JozaMsg
  | .recv _ _ outs => outs
  | .ping _ outs => outs
  | .signal => []
  | .rehash => []

theorem JozaPoll.Step.clean {e : Event} (h : b.Step e b') : ∀ o ∈ e.sent, o.Clean := by
  cases e with
  | recv msg env outs => exact sProcess_clean h.2
  | ping visit outs =>
    obtain ⟨⟨b₁, outs₁⟩, hworkers, hexit⟩ := bind_eq_ok h.2
    have hclean := sPingWorkers_clean hworkers
    simp only at hexit
    split_ifs at hexit <;> cases hexit <;> exact hclean
  | signal => exact fun o ho => absurd ho List.not_mem_nil
  | rehash => exact fun o ho => absurd ho List.not_mem_nil

/-- **What the broker sends arrives.** In every run, a message that the broker sends is
received as it was sent, unless it is a directory. -/
theorem sent_received {es : List Event} (h : brokerSystem.Run b es b') {e : Event} (he : e ∈ es)
    (ho : o ∈ e.sent) (hid : o.id ≠ .directory) (a : Frame) (more : List Frame) :
    jozaMsgRecv a (jozaMsgSend o ++ more) = .ok { o with address := a } := by
  have hclean : o.Clean := by
    induction h with
    | nil => cases he
    | cons hstep _ ih =>
      rcases List.mem_cons.1 he with rfl | he
      · exact hstep.clean o ho
      · exact ih he
  exact hclean.recv hid a more

/-- The answer to a `CONNECT`. -/
theorem sent_received_connect :
    jozaMsgRecv [5] (jozaMsgSend (sendAddrConnectIndication connectA.address) ++ []) =
      .ok { sendAddrConnectIndication connectA.address with address := [5] } := by
  obtain ⟨b', h⟩ : ∃ b', sProcess .start connectA quietEnv =
      .ok (b', [sendAddrConnectIndication connectA.address]) := ⟨_, rfl⟩
  have hrun : brokerSystem.Run .start
      [.recv connectA quietEnv [sendAddrConnectIndication connectA.address]] b' :=
    .single ⟨rfl, h⟩
  exact sent_received hrun List.mem_cons_self List.mem_cons_self (by decide) [5] []

end Broker
end Jozabad
