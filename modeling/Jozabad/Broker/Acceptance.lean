import Jozabad.Broker.Codec
import Jozabad.Lib.Language

/-!
# Which frames are received (`joza_msg_recv`)

`Spelled a more id m bs` is the wire format of a message as a grammar: `bs` are bytes that spell
the fields of the message `m` of type `id`. A string is spelled by any bytes of its length, and
is what stands in front of their first NUL (`Text`), and a directory by the pairs of a hash
table, of which the first one with a name counts (`Pairs`).

`recv_iff` says that the receiver takes a message from some frames exactly if they are spelled
so, and which one. Behind the fields, a frame may hold anything.
-/

namespace Jozabad
namespace Broker

open Reader

variable {a : Frame} {m : JozaMsg} {more : List Frame}

/-! ### The grammar -/

/-- The bytes of a string with a one-byte length. -/
inductive Text (s : CString) : List UInt8 → Prop
  | mk {raw : List UInt8} (hlength : raw.length < 256 ^ 1) (hs : s = .ofBytes raw) :
    Text s (putNumber 1 raw.length ++ raw)

/-- The bytes of `n` pairs, which are added to the directory `dir` and make it `dir'`. -/
inductive Pairs : ℕ → List (CString × String) → List (CString × String) → List UInt8 → Prop
  | nil {dir} : Pairs 0 dir dir []
  | cons {n dir dir' string key value xs ys} (hs : Text string xs)
      (hpair : splitPair string = some (key, value))
      (hrest : Pairs n (zhashInsert dir key value) dir' ys) : Pairs (n + 1) dir dir' (xs ++ ys)

/-- The bytes of the fields of a message. A second frame holds the user data. -/
inductive Spelled (a : Frame) (more : List Frame) : MsgId → JozaMsg → List UInt8 → Prop
  | data {q pr ps data rest} (hmore : more = data :: rest) :
    Spelled a more .data { address := a, id := .data, q, pr, ps, data }
      (putNumber1 q ++ (putNumber2 pr ++ putNumber2 ps))
  | ready {id pr} (hid : id = .rr ∨ id = .rnr) :
    Spelled a more id { address := a, id, pr } (putNumber2 pr)
  | call {id callingAddress calledAddress packet window throughput data rest xs ys}
    (hid : id = .callRequest ∨ id = .callAccepted) (hmore : more = data :: rest)
    (hcalling : Text callingAddress xs) (hcalled : Text calledAddress ys) :
    Spelled a more id
      { address := a, id, callingAddress, calledAddress, packet, window, throughput, data }
      (xs ++ (ys ++ (putNumber1 packet ++ (putNumber2 window ++ putNumber1 throughput))))
  | cause {id cause diagnostic}
    (hid : id = .clearRequest ∨ id = .resetRequest ∨ id = .diagnostic) :
    Spelled a more id { address := a, id, cause, diagnostic }
      (putNumber1 cause ++ putNumber1 diagnostic)
  | connect {callingAddress hostName directionality xs ys zs} (hprotocol : Text PROTOCOL xs)
    (hcalling : Text callingAddress ys) (hhost : Text hostName zs) :
    Spelled a more .connect
      { address := a, id := .connect, callingAddress, hostName, directionality }
      (xs ++ (putNumber1 JOZA_MSG_VERSION ++ (ys ++ (zs ++ putNumber1 directionality))))
  | directory {n workers xs} (hn : n < 256 ^ 1) (hpairs : Pairs n [] workers xs) :
    Spelled a more .directory { address := a, id := .directory, workers } (putNumber 1 n ++ xs)
  | bare {id} (hid : id ∈ [MsgId.clearConfirmation, .resetConfirmation, .connectIndication,
      .disconnect, .disconnectIndication, .directoryRequest, .enq, .ack]) :
    Spelled a more id { address := a, id } []

/-! ### The readers of the fields -/

theorem accepts_getNumber1 : getNumber1.Accepts fun x bs => bs = putNumber1 x := by
  refine ((accepts_getNumber RecvError.malformed 1).map UInt8.ofNat).congr fun x bs => ?_
  constructor
  · rintro ⟨k, rfl, hk, rfl⟩
    rw [putNumber1, UInt8.toNat_ofNat_of_lt' (by simpa using hk)]
  · rintro rfl
    exact ⟨x.toNat, UInt8.ofNat_toNat.symm, x.toNat_lt, rfl⟩

theorem accepts_getNumber2 : getNumber2.Accepts fun x bs => bs = putNumber2 x := by
  refine ((accepts_getNumber RecvError.malformed 2).map UInt16.ofNat).congr fun x bs => ?_
  constructor
  · rintro ⟨k, rfl, hk, rfl⟩
    rw [putNumber2, UInt16.toNat_ofNat_of_lt' (by simpa using hk)]
  · rintro rfl
    exact ⟨x.toNat, UInt16.ofNat_toNat.symm, x.toNat_lt, rfl⟩

theorem accepts_getString : getString.Accepts Text := by
  refine ((accepts_getNumber RecvError.malformed 1).bind fun n =>
    (accepts_getBytes RecvError.malformed n).map CString.ofBytes).congr fun s bs => ?_
  constructor
  · rintro ⟨n, _, ys, rfl, ⟨hn, rfl⟩, _, rfl, rfl, rfl⟩
    exact .mk hn rfl
  · rintro ⟨hlength, rfl⟩
    exact ⟨_, _, _, rfl, ⟨hlength, rfl⟩, _, rfl, rfl, rfl⟩

theorem accepts_rcvData : (rcvData more).Accepts fun data bs =>
    bs = [] ∧ ∃ rest, more = data :: rest := by
  cases more with
  | nil =>
    refine (Accepts.throw RecvError.malformed).congr fun data bs => ?_
    refine iff_of_false id ?_
    rintro ⟨-, rest, hmore⟩
    cases hmore
  | cons data rest =>
    refine (Accepts.pure data).congr fun data' bs => ?_
    constructor
    · rintro ⟨rfl, rfl⟩
      exact ⟨rfl, rest, rfl⟩
    · rintro ⟨rfl, rest', hmore⟩
      cases hmore
      exact ⟨rfl, rfl⟩

theorem accepts_getWorkers (n : ℕ) (dir : List (CString × String)) :
    (getWorkers n dir).Accepts (Pairs n dir) := by
  induction n generalizing dir with
  | zero =>
    refine (Accepts.pure dir).congr fun dir' bs => ?_
    constructor
    · rintro ⟨rfl, rfl⟩
      exact .nil
    · rintro ⟨⟩
      exact ⟨rfl, rfl⟩
  | succ n ih =>
    -- A pair without a `=` is turned down.
    let Rest (string : CString) (dir' : List (CString × String)) (bs : List UInt8) : Prop :=
      ∃ key value, splitPair string = some (key, value) ∧
        Pairs n (zhashInsert dir key value) dir' bs
    refine (accepts_getString.bind (M := Rest) fun string => ?_).congr fun dir' bs => ?_
    · cases hsplit : splitPair string with
      | none =>
        refine (Accepts.throw _).congr fun dir' bs => iff_of_false id ?_
        rintro ⟨key, value, hsome, -⟩
        cases hsplit.symm.trans hsome
      | some pair =>
        refine (ih _).congr fun dir' bs => ?_
        constructor
        · exact fun h => ⟨pair.1, pair.2, hsplit, h⟩
        · rintro ⟨key, value, hsome, h⟩
          cases hsplit.symm.trans hsome
          exact h
    · constructor
      · rintro ⟨string, xs, ys, rfl, hs, key, value, hsplit, hrest⟩
        exact .cons hs hsplit hrest
      · intro h
        cases h with
        | cons hs hsplit hrest => exact ⟨_, _, _, rfl, hs, _, _, hsplit, hrest⟩

/-- The reader of the fields of a `CONNECT`, behind the version. -/
theorem accepts_connect : (do
    let callingAddress ← getString
    let hostName ← getString
    let directionality ← getNumber1
    return { address := a, id := .connect, callingAddress, hostName, directionality }
      : Reader RecvError JozaMsg).Accepts fun m bs =>
      ∃ callingAddress hostName directionality xs ys,
        m = { address := a, id := .connect, callingAddress, hostName, directionality } ∧
          bs = xs ++ (ys ++ putNumber1 directionality) ∧ Text callingAddress xs ∧
            Text hostName ys := by
  refine (accepts_getString.bind fun calling => accepts_getString.bind fun host =>
    accepts_getNumber1.map _).congr fun m bs => ?_
  constructor
  · rintro ⟨calling, xs, _, rfl, hcalling, host, ys, _, rfl, hhost, dir, rfl, rfl⟩
    exact ⟨calling, host, dir, xs, ys, rfl, rfl, hcalling, hhost⟩
  · rintro ⟨calling, host, dir, xs, ys, rfl, rfl, hcalling, hhost⟩
    exact ⟨calling, xs, _, rfl, hcalling, host, ys, _, rfl, hhost, dir, rfl, rfl⟩

/-- **The reader of the fields** accepts what the grammar says, for every type. -/
theorem accepts_getFields (id : MsgId) :
    (getFields a id more).Accepts (Spelled a more id) := by
  unfold getFields
  cases id with
  | data =>
    refine (accepts_getNumber1.bind fun q => accepts_getNumber2.bind fun pr =>
      accepts_getNumber2.bind fun ps => accepts_rcvData.map _).congr fun m bs => ?_
    constructor
    · rintro ⟨q, _, _, rfl, rfl, pr, _, _, rfl, rfl, ps, _, _, rfl, rfl, data, rfl, rfl, rest,
        hmore⟩
      rw [List.append_nil]
      exact .data hmore
    · intro h
      cases h with
      | data hmore =>
        exact ⟨_, _, _, rfl, rfl, _, _, _, rfl, rfl, _, _, _, (List.append_nil _).symm, rfl, _, rfl,
          rfl, _, hmore⟩
      | ready hid | call hid | cause hid | bare hid => simp at hid
  | rr | rnr =>
    refine (accepts_getNumber2.map _).congr fun m bs => ?_
    constructor
    · rintro ⟨pr, rfl, rfl⟩
      exact .ready (by simp)
    · intro h
      cases h with
      | ready => exact ⟨_, rfl, rfl⟩
      | call hid | cause hid | bare hid => simp at hid
  | callRequest | callAccepted =>
    refine (accepts_getString.bind fun calling => accepts_getString.bind fun called =>
      accepts_getNumber1.bind fun packet => accepts_getNumber2.bind fun window =>
        accepts_getNumber1.bind fun throughput => accepts_rcvData.map _).congr fun m bs => ?_
    constructor
    · rintro ⟨calling, xs, _, rfl, hcalling, called, ys, _, rfl, hcalled, packet, _, _, rfl, rfl,
        window, _, _, rfl, rfl, tput, _, _, rfl, rfl, data, rfl, rfl, rest, hmore⟩
      rw [List.append_nil]
      exact .call (by simp) hmore hcalling hcalled
    · intro h
      cases h with
      | call _ hmore hcalling hcalled =>
        exact ⟨_, _, _, rfl, hcalling, _, _, _, rfl, hcalled, _, _, _, rfl, rfl, _, _, _, rfl, rfl,
          _, _, _, (List.append_nil _).symm, rfl, _, rfl, rfl, _, hmore⟩
      | ready hid | cause hid | bare hid => simp at hid
  | clearRequest | resetRequest | diagnostic =>
    refine (accepts_getNumber1.bind fun cause => accepts_getNumber1.map _).congr fun m bs => ?_
    constructor
    · rintro ⟨cause, _, _, rfl, rfl, diagnostic, rfl, rfl⟩
      exact .cause (by simp)
    · intro h
      cases h with
      | cause => exact ⟨_, _, _, rfl, rfl, _, rfl, rfl⟩
      | ready hid | call hid | bare hid => simp at hid
  | connect =>
    -- The protocol and the version are looked at before the reader goes on.
    refine (accepts_getString.bind fun protocol => Accepts.ite_throw fun _ =>
      accepts_getNumber1.bind fun version => Accepts.ite_throw fun _ =>
        accepts_connect).congr fun m bs => ?_
    constructor
    · rintro ⟨protocol, xs, _, rfl, hprotocol, hsvc, version, _, _, rfl, rfl, hversion, calling,
        host, dir, ys, zs, rfl, rfl, hcalling, hhost⟩
      obtain rfl := not_not.1 hsvc
      obtain rfl := not_not.1 hversion
      exact .connect hprotocol hcalling hhost
    · intro h
      cases h with
      | connect hprotocol hcalling hhost =>
        exact ⟨_, _, _, rfl, hprotocol, not_not.2 rfl, _, _, _, rfl, rfl, not_not.2 rfl, _, _, _, _,
          _, rfl, rfl, hcalling, hhost⟩
      | ready hid | call hid | cause hid | bare hid => simp at hid
  | directory =>
    refine ((accepts_getNumber RecvError.malformed 1).bind fun n =>
      (accepts_getWorkers n []).map _).congr fun m bs => ?_
    constructor
    · rintro ⟨n, _, xs, rfl, ⟨hn, rfl⟩, workers, rfl, hpairs⟩
      exact .directory hn hpairs
    · intro h
      cases h with
      | directory hn hpairs => exact ⟨_, _, _, rfl, ⟨hn, rfl⟩, _, rfl, hpairs⟩
      | ready hid | call hid | cause hid | bare hid => simp at hid
  | clearConfirmation | resetConfirmation | connectIndication | disconnect | disconnectIndication
    | directoryRequest | enq | ack =>
    refine (Accepts.pure _).congr fun m bs => ?_
    constructor
    · rintro ⟨rfl, rfl⟩
      exact .bare (by simp)
    · intro h
      cases h with
      | bare => exact ⟨rfl, rfl⟩
      | ready hid | call hid | cause hid => simp at hid

/-! ### The receiver -/

theorem MsgId.eq_code_of_ofCode {code : ℕ} {id : MsgId} (h : MsgId.ofCode code = some id) :
    code = id.code := by
  unfold MsgId.ofCode at h
  split at h <;> cases h <;> rfl

/-- The type that a message is spelled by is its own. -/
theorem Spelled.id_eq {id : MsgId} {bs : List UInt8} (h : Spelled a more id m bs) : m.id = id := by
  cases h <;> rfl

theorem accepts_getMsg : (getMsg a more).Accepts fun m bs => ∃ fields,
    bs = putNumber 2 SIGNATURE ++ (putNumber 1 m.id.code ++ fields) ∧
      Spelled a more m.id m fields := by
  let Fields (code : ℕ) (m : JozaMsg) (bs : List UInt8) : Prop :=
    code = m.id.code ∧ Spelled a more m.id m bs
  refine ((accepts_getNumber RecvError.malformed 2).bind fun signature => Accepts.ite_throw
    fun _ => (accepts_getNumber RecvError.malformed 1).bind (M := Fields) fun code => ?_).congr
      fun m bs => ?_
  · cases hcode : MsgId.ofCode code with
    | none =>
      refine (Accepts.throw _).congr fun m bs => iff_of_false id ?_
      rintro ⟨rfl, -⟩
      rw [MsgId.ofCode_code] at hcode
      cases hcode
    | some id =>
      refine (accepts_getFields id).congr fun m bs => ?_
      constructor
      · intro h
        obtain rfl := h.id_eq
        exact ⟨MsgId.eq_code_of_ofCode hcode, h⟩
      · rintro ⟨rfl, h⟩
        rw [MsgId.ofCode_code] at hcode
        cases hcode
        exact h
  have hsignature : SIGNATURE < 256 ^ 2 := by decide
  constructor
  · rintro ⟨_, _, _, rfl, ⟨-, rfl⟩, hgarbage, _, _, fields, rfl, ⟨-, rfl⟩, rfl, h⟩
    rw [not_not.1 hgarbage]
    exact ⟨fields, rfl, h⟩
  · rintro ⟨fields, rfl, h⟩
    have hcode : m.id.code < 256 ^ 1 := by
      cases m.id <;> decide
    exact ⟨_, _, _, rfl, ⟨hsignature, rfl⟩, not_not.2 rfl, _, _, _, rfl, ⟨hcode, rfl⟩, rfl, h⟩

/-- **What is received.** The receiver takes the message `m` from some frames exactly if the
first one begins with the signature, the number of a type, and bytes that spell `m` as a message
of this type. -/
theorem recv_iff (a : Frame) (frames : List Frame) (m : JozaMsg) :
    jozaMsgRecv a frames = .ok m ↔ ∃ fields rest more, frames =
      (putNumber 2 SIGNATURE ++ (putNumber 1 m.id.code ++ (fields ++ rest))) :: more ∧
        Spelled a more m.id m fields := by
  cases frames with
  | nil =>
    refine iff_of_false (by simp [jozaMsgRecv]) ?_
    rintro ⟨_, _, _, hframes, -⟩
    cases hframes
  | cons frame more =>
    -- What is left of the frame does not matter.
    have hon : jozaMsgRecv a (frame :: more) = .ok m ↔
        ∃ rest, (getMsg a more).on frame = (.ok m, rest) :=
      ⟨fun h => ⟨_, Prod.ext h rfl⟩, fun ⟨_, h⟩ => congrArg Prod.fst h⟩
    rw [hon]
    constructor
    · rintro ⟨rest, h⟩
      obtain ⟨_, rfl, fields, rfl, hfields⟩ := (accepts_getMsg m frame rest).1 h
      refine ⟨fields, rest, more, ?_, hfields⟩
      simp only [List.append_assoc]
    · rintro ⟨fields, rest, _, hframes, hfields⟩
      obtain ⟨rfl, rfl⟩ := List.cons.inj hframes
      refine ⟨rest, (accepts_getMsg m _ rest).2 ⟨_, ?_, fields, rfl, hfields⟩⟩
      simp only [List.append_assoc]

end Broker
end Jozabad
