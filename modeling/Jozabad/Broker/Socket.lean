import Jozabad.Broker.RoundTrip

/-!
# The broker's socket (`poll.c`, `joza_msg.c`)

The messages of all workers arrive on one socket. Each has several frames, and the socket puts
the address of the connection in front of them. `jozaMsgRecvFrom` takes the next message from the
frames that wait. A message without the signature is dropped to its end. Of any other, what is
left over stays on the socket and is where the next message is looked for, with an address in
front like any other.

`socketSystem` is the broker with its socket. Seen from its tables it is a broker that receives
clean messages (`socket_refines`). The addresses of these messages tell nothing: every run of
such a broker is brought about by a single message of a single connection
(`one_connection_suffices`). Without the messages that have no signature, the run is the same
(`garbage_ignored`).
-/

namespace Jozabad
namespace Broker

open JozaMsg Reader

/-! ### Receiving from the socket -/

/-- The frames that wait, message by message. Some of the first message may be taken already. -/
abbrev Inbound := List (List Frame)

/-- What is left over of a message stays in front. -/
def leftOver (more : List Frame) (queue : Inbound) : Inbound :=
  if more.isEmpty then queue else more :: queue

/-- The frames behind the first one that a message does not take. -/
def behind (id : MsgId) (more : List Frame) : List Frame :=
  match id with
  | .data | .callRequest | .callAccepted => more.tail
  | _ => more

/-- What comes of an attempt to receive. -/
inductive Taken where
  | msg (msg : JozaMsg) (queue : Inbound)
  /-- There is no message, and the receiver returns. -/
  | malformed (queue : Inbound)
  /-- All that waited has been dropped, and the receiver waits for more. -/
  | blocked
  /-- A null pointer is copied. -/
  | crashed

/-- Receive a message. -/
def jozaMsgRecvFrom : Inbound → Taken
  | [] => .blocked
  | [] :: queue => jozaMsgRecvFrom queue
  -- An address alone.
  | [_] :: queue => .malformed queue
  | (address :: frame :: more) :: queue =>
    match jozaMsgRecv address (frame :: more) with
    | .ok msg => .msg msg (leftOver (behind msg.id more) queue)
    -- The rest of the message is dropped, and the next one is tried.
    | .error .garbage => jozaMsgRecvFrom queue
    -- The rest of the message is not dropped.
    | .error .malformed => .malformed (leftOver more queue)
    | .error .nullValue => .crashed

/-- The frames of a message, with the address in front. -/
def JozaMsg.wire (m : JozaMsg) : List Frame :=
  m.address :: jozaMsgSend m

/-- Taking messages from the socket. -/
def inboundSystem : Lts Inbound JozaMsg where
  Init queue := queue = []
  Step queue m queue' := jozaMsgRecvFrom queue = .msg m queue'

/-! ### The broker with its socket -/

structure SocketPoll where
  poll : JozaPoll
  inbound : Inbound
  /-- The receiver waits for more frames, and the main loop waits for it. -/
  waiting : Bool

inductive SocketEvent where
  /-- A message arrives. -/
  | arrive (address : Frame) (frames : List Frame)
  /-- The main loop finds the socket readable. -/
  | recv (env : Env) (sent : List (List Frame))
  /-- The timer expires, the signal arrives, or a table changes its order. -/
  | other (e : Event)

/-- The event is not the receiving of a message. -/
def Event.NoRecv : Event → Prop
  | .recv _ _ _ => False
  | .ping _ _ | .signal | .rehash => True

/-- One step of the broker with its socket. -/
inductive SocketStep : SocketPoll → SocketEvent → SocketPoll → Prop
  | arrive {s address frames} :
      SocketStep s (.arrive address frames)
        { s with inbound := s.inbound ++ [address :: frames] }
  /-- A message is taken and processed, and the answers are sent. -/
  | recv {s env msg queue poll outs} (hrun : s.poll.exited = false)
      (htaken : jozaMsgRecvFrom s.inbound = .msg msg queue)
      (hproc : sProcess s.poll msg env = .ok (poll, outs)) :
      SocketStep s (.recv env (outs.map JozaMsg.wire)) { poll, inbound := queue, waiting := false }
  /-- There is no message to process. -/
  | malformed {s env queue} (hrun : s.poll.exited = false)
      (htaken : jozaMsgRecvFrom s.inbound = .malformed queue) :
      SocketStep s (.recv env []) { s with inbound := queue, waiting := false }
  | blocked {s env} (hrun : s.poll.exited = false) (hreadable : s.inbound ≠ [])
      (htaken : jozaMsgRecvFrom s.inbound = .blocked) :
      SocketStep s (.recv env []) { s with inbound := [], waiting := true }
  /-- While the receiver waits, only the signal gets through, and interrupts it. -/
  | other {s e poll} (hno : e.NoRecv) (hwait : s.waiting = true → e = .signal)
      (hstep : s.poll.Step e poll) : SocketStep s (.other e) { s with poll, waiting := false }

/-- The broker with its socket. -/
def socketSystem : Lts SocketPoll SocketEvent where
  Init s := s = { poll := .start, inbound := [], waiting := false }
  Step := SocketStep

variable {b b' : JozaPoll} {m : JozaMsg} {ms : List JozaMsg} {a : Frame} {more : List Frame}
  {queue queue' : Inbound} {s s' u : SocketPoll} {t : SocketEvent} {ts : List SocketEvent}
  {e : Event} {es : List Event}

/-! ### Messages behind one another -/

@[simp] theorem leftOver_nil : leftOver [] queue = queue := rfl

/-- The frames of a message are all taken, and no others. -/
theorem recvFrom_wire (h : m.WireFits) :
    jozaMsgRecvFrom ((m.wire ++ more) :: queue) =
      .msg (m.onWire m.address) (leftOver more queue) := by
  have hrecv := recv_send h m.address more
  have hid : (m.onWire m.address).id = m.id := by
    unfold JozaMsg.onWire
    cases m.id <;> rfl
  unfold JozaMsg.wire
  -- A type with a second frame is one of which `behind` takes this frame.
  obtain ⟨frame, rest, hframes, hbehind⟩ : ∃ frame rest,
      jozaMsgSend m ++ more = frame :: rest ∧ behind m.id rest = more := by
    unfold jozaMsgSend behind
    cases m.id <;> exact ⟨_, _, rfl, rfl⟩
  rw [hframes] at hrecv
  rw [List.cons_append, hframes, jozaMsgRecvFrom, hrecv]
  simp only [hid, hbehind]

/-- Messages that are in front of a message are taken one after the other. -/
theorem run_wires (h : ∀ m ∈ ms, m.WireFits) :
    inboundSystem.Run (leftOver (ms.flatMap JozaMsg.wire ++ more) queue)
      (ms.map fun m => m.onWire m.address) (leftOver more queue) := by
  induction ms with
  | nil => exact .nil _
  | cons m ms ih =>
    rw [List.forall_mem_cons] at h
    rw [List.flatMap_cons, List.append_assoc]
    -- What is left over begins with the address of the next message.
    exact .cons (recvFrom_wire h.1) (ih h.2)

theorem leftOver_wires (hne : ms ≠ []) :
    leftOver (ms.flatMap JozaMsg.wire) queue = ms.flatMap JozaMsg.wire :: queue := by
  obtain ⟨m, ms, rfl⟩ := List.exists_cons_of_ne_nil hne
  rfl

/-- Messages that have been sent as one are taken one after the other. -/
theorem run_groups {groups : List (List JozaMsg)} (hne : ∀ g ∈ groups, g ≠ [])
    (h : ∀ m ∈ groups.flatten, m.WireFits) :
    inboundSystem.Run (groups.map (·.flatMap JozaMsg.wire) ++ queue)
      (groups.flatten.map fun m => m.onWire m.address) queue := by
  induction groups with
  | nil => exact .nil queue
  | cons g groups ih =>
    rw [List.forall_mem_cons] at hne
    rw [List.flatten_cons, List.forall_mem_append] at h
    -- The socket gets rid of the first group before it comes to the others.
    have hfirst : inboundSystem.Run
        (leftOver (g.flatMap JozaMsg.wire ++ []) (groups.map (·.flatMap JozaMsg.wire) ++ queue))
        (g.map fun m => m.onWire m.address) (groups.map (·.flatMap JozaMsg.wire) ++ queue) :=
      run_wires h.1
    rw [List.append_nil, leftOver_wires hne.1] at hfirst
    rw [List.flatten_cons, List.map_append]
    exact hfirst.append (ih hne.2 h.2)

theorem fits_connectA : connectA.WireFits :=
  .of_empty (by decide) (by decide) (by decide) rfl

theorem fits_connectB : connectB.WireFits :=
  .of_empty (by decide) (by decide) (by decide) rfl

theorem taken_connectA : jozaMsgRecvFrom [connectA.wire] = .msg connectA [] := by
  have hmsg : jozaMsgRecvFrom [connectA.wire ++ []] =
      .msg (connectA.onWire connectA.address) (leftOver [] []) := recvFrom_wire fits_connectA
  rw [List.append_nil] at hmsg
  exact hmsg

/-- **What is sent is received, however it is grouped.** Messages of any types, each with an
address in front, are taken from the socket in their order, with the fields of their types, also
where several of them have been sent as one. What stands behind them is not looked at. -/
theorem takes_all (groups : List (List JozaMsg)) (ms : List JozaMsg) (hne : ∀ g ∈ groups, g ≠ [])
    (h : ∀ m ∈ groups.flatten ++ ms, m.WireFits) (more : List Frame) (queue : Inbound) :
    inboundSystem.Run
      (groups.map (·.flatMap JozaMsg.wire) ++ leftOver (ms.flatMap JozaMsg.wire ++ more) queue)
      ((groups.flatten ++ ms).map fun m => m.onWire m.address) (leftOver more queue) := by
  rw [List.forall_mem_append] at h
  rw [List.map_append]
  exact (run_groups hne h.1).append (run_wires h.2)

/-- A directory of two workers, and what is behind it in the same message. -/
theorem takes_all_directory :
    let m := sendAddrDirectory [1, 2] [(.ofBytes [65], "IOCALLS,AVAILABLE"),
      (.ofBytes [66], "ICALLS,BUSY")]
    inboundSystem.Run [connectA.wire, m.wire ++ connectB.wire ++ [[9]]]
      [connectA.onWire connectA.address, m.onWire m.address, connectB.onWire connectB.address]
      [[[9]]] := by
  intro m
  have hascii {s : String} (h : s.toList.all (fun c => decide (c.toNat < 256)) = true) :
      ∀ c ∈ s.toList, c.toNat < 256 := by simpa using h
  have hdirectory : m.WireFits :=
    ⟨by decide, by decide, by decide, by decide, by
      intro e he
      rcases List.mem_pair.1 he with rfl | rfl <;>
        exact ⟨⟨by decide, by decide, hascii (by decide)⟩, by decide⟩, by decide⟩
  have hfits : ∀ o ∈ [connectA, m, connectB], o.WireFits := by
    rw [List.forall_mem_cons, List.forall_mem_cons, List.forall_mem_singleton]
    exact ⟨fits_connectA, hdirectory, fits_connectB⟩
  have hne : ∀ g ∈ [[connectA]], g ≠ [] := List.forall_mem_singleton.2 (List.cons_ne_nil _ _)
  simpa [leftOver, JozaMsg.wire] using takes_all [[connectA]] [m, connectB] hne hfits [[9]] []

/-! ### The broker behind the socket -/

/-- What is taken from the socket is clean. -/
theorem recvFrom_clean (h : jozaMsgRecvFrom queue = .msg m queue') : m.Clean := by
  fun_induction jozaMsgRecvFrom queue with
  | case1 | case3 | case6 | case7 => cases h
  | case2 _ ih | case5 _ _ _ _ _ ih => exact ih h
  | case4 address frame more queue msg hrecv =>
    cases h
    exact (recv_clean hrecv).1

/-- What a step on the socket comes to. -/
inductive Shows : SocketEvent → List Event → Prop
  | arrive {address frames} : Shows (.arrive address frames) []
  | recv {env msg outs} (hclean : JozaMsg.Clean msg) :
      Shows (.recv env (outs.map JozaMsg.wire)) [.recv msg env outs]
  | nothing {env} : Shows (.recv env []) []
  | other {e : Event} : Shows (.other e) [e]

/-- A step with the socket is a step of the broker, or leaves it as it is. -/
theorem exists_run_of_step (hstep : socketSystem.Step s t s') :
    ∃ es, brokerSystem.Run s.poll es s'.poll ∧ Shows t es := by
  cases hstep with
  | arrive => exact ⟨[], .nil s.poll, .arrive⟩
  | @recv env msg queue poll outs hrun htaken hproc =>
    have hone : brokerSystem.Step s.poll (.recv msg env outs) poll := ⟨hrun, hproc⟩
    exact ⟨[.recv msg env outs], .single hone, .recv (recvFrom_clean htaken)⟩
  | malformed | blocked => exact ⟨[], .nil s.poll, .nothing⟩
  | @other e poll _ _ hstep =>
    have hone : brokerSystem.Step s.poll e poll := hstep
    exact ⟨[e], .single hone, .other⟩

/-- Behind the socket, the broker only gets where it gets without it. -/
theorem reachable_poll (h : socketSystem.Reachable s) : brokerSystem.Reachable s.poll := by
  induction h with
  | init hinit =>
    obtain rfl := hinit
    exact .init rfl
  | step _ hstep ih =>
    obtain ⟨es, hrun, -⟩ := exists_run_of_step hstep
    exact ih.run hrun

/-! ### One connection for all -/

/-- The message that is received can be sent as it is. -/
def Event.Sendable : Event → Prop
  | .recv msg _ _ => msg.WireFits ∧ msg.onWire msg.address = msg
  | .ping _ _ | .signal | .rehash => True

/-- The frames of the message that is received. -/
def Event.frames : Event → List Frame
  | .recv msg _ _ => msg.wire
  | .ping _ _ | .signal | .rehash => []

/-- The same step with the socket. -/
def Event.onSocket : Event → SocketEvent
  | .recv _ env outs => .recv env (outs.map JozaMsg.wire)
  | .ping visit outs => .other (.ping visit outs)
  | .signal => .other .signal
  | .rehash => .other .rehash

/-- The broker with frames of one message on its socket. -/
def JozaPoll.facing (b : JozaPoll) (frames : List Frame) : SocketPoll :=
  { poll := b, inbound := leftOver frames [], waiting := false }

/-- The broker goes through a run while the messages of the run wait on the socket. -/
theorem run_onSocket (hrun : brokerSystem.Run b es b') (hes : ∀ e ∈ es, e.Sendable) :
    socketSystem.Run (b.facing (es.flatMap Event.frames)) (es.map Event.onSocket)
      (b'.facing []) := by
  induction hrun with
  | nil => exact .nil _
  | @cons b e b₁ es b' hstep _ ih =>
    rw [List.forall_mem_cons] at hes
    -- Any other event leaves the frames of the rest of the run where they are.
    have hother (hno : e.NoRecv) (hframes : e.frames = []) (hsocket : e.onSocket = .other e) :
        SocketStep (b.facing ((e :: es).flatMap Event.frames)) e.onSocket
          (b₁.facing (es.flatMap Event.frames)) := by
      rw [List.flatMap_cons, hframes, List.nil_append, hsocket]
      exact .other hno (fun h => Bool.noConfusion h) hstep
    refine .cons ?_ (ih hes.2)
    cases e with
    | recv msg env outs =>
      obtain ⟨hfits, hwire⟩ := hes.1
      have htaken : jozaMsgRecvFrom [msg.wire ++ es.flatMap Event.frames] =
          .msg (msg.onWire msg.address) (leftOver (es.flatMap Event.frames) []) :=
        recvFrom_wire hfits
      -- The message is what its sender had, so that the broker does what it did in the run.
      rw [hwire] at htaken
      exact .recv hstep.1 htaken hstep.2
    | ping | signal | rehash => exact hother trivial rfl rfl

/-- `A` registers. -/
def registersA : Event :=
  .recv connectA quietEnv [sendAddrConnectIndication connectA.address]

/-- `B` registers. -/
def registersB : Event :=
  .recv connectB quietEnv [sendAddrConnectIndication connectB.address]

theorem run_registers : ∃ b, brokerSystem.Run .start [registersA, registersB] b := by
  obtain ⟨b₁, hA, b₂, hB⟩ : ∃ b₁, JozaPoll.Step .start registersA b₁ ∧
      ∃ b₂, b₁.Step registersB b₂ := ⟨_, ⟨rfl, rfl⟩, _, rfl, rfl⟩
  exact ⟨b₂, .cons hA (.single hB)⟩

theorem sendable_registers : ∀ e ∈ [registersA, registersB], e.Sendable := by
  rw [List.forall_mem_cons, List.forall_mem_singleton]
  exact ⟨⟨fits_connectA, rfl⟩, fits_connectB, rfl⟩

/-- **One connection suffices.** Whatever the broker does, with messages of any number of
connections, it does as well when a single message arrives, on the connection that the first of
them is from. -/
theorem one_connection_suffices {msg : JozaMsg} {env : Env} {outs : List JozaMsg}
    (hrun : brokerSystem.Run b (.recv msg env outs :: es) b')
    (hes : ∀ e ∈ Event.recv msg env outs :: es, e.Sendable) :
    ∃ frames, socketSystem.Run (b.facing [])
      (.arrive msg.address frames :: (Event.recv msg env outs :: es).map Event.onSocket)
        (b'.facing []) :=
  ⟨_, .cons .arrive (run_onSocket hrun hes)⟩

/-- `B` connects on the connection of `A`. -/
theorem one_connection_suffices_AB : ∃ (b : JozaPoll) (frames : List Frame),
    socketSystem.Run (JozaPoll.start.facing [])
      (.arrive connectA.address frames :: [registersA, registersB].map Event.onSocket)
        (b.facing []) := by
  obtain ⟨b, hrun⟩ := run_registers
  exact ⟨b, one_connection_suffices hrun sendable_registers⟩

/-! ### Garbage -/

/-- The loop of the receiver drops these: a message without the signature, and one without
frames, which does not arrive. -/
def isGarbage : List Frame → Bool
  | [] => true
  | [_] => false
  | _ :: frame :: _ => decide (2 ≤ frame.length ∧ toNumber (frame.take 2) ≠ SIGNATURE)

theorem recv_garbage {frame : Frame} (hlen : 2 ≤ frame.length)
    (hsignature : toNumber (frame.take 2) ≠ SIGNATURE) :
    jozaMsgRecv a (frame :: more) = .error .garbage := by
  have hread : (getNumber RecvError.malformed 2).Reads (frame.take 2)
      (toNumber (frame.take 2)) := by
    have hbytes := reads_getBytes RecvError.malformed (frame.take 2)
    rw [List.length_take_of_le hlen] at hbytes
    exact hbytes.map
  -- The signature is read, and that is all.
  show ((getMsg a more).on frame).1 = _
  rw [← List.take_append_drop 2 frame]
  refine hread.bind_error ?_
  rw [if_pos hsignature]
  rfl

/-- Garbage in front is dropped. -/
theorem recvFrom_garbage {frames : List Frame} (h : isGarbage frames) :
    jozaMsgRecvFrom (frames :: queue) = jozaMsgRecvFrom queue := by
  match frames with
  | [] => rw [jozaMsgRecvFrom]
  | [_] => cases h
  | address :: frame :: more =>
    obtain ⟨hlen, hsignature⟩ := of_decide_eq_true h
    rw [jozaMsgRecvFrom, recv_garbage hlen hsignature]

/-- The second queue is the first one without some of its garbage. -/
inductive Sifted : Inbound → Inbound → Prop
  | nil : Sifted [] []
  | keep {queue queue' frames} :
      Sifted queue queue' → Sifted (frames :: queue) (frames :: queue')
  | drop {queue queue' frames} (h : isGarbage frames) :
      Sifted queue queue' → Sifted (frames :: queue) queue'

theorem Sifted.refl (queue : Inbound) : Sifted queue queue := by
  induction queue with
  | nil => exact .nil
  | cons frames queue ih => exact .keep ih

theorem Sifted.append {queue₁ queue₁' : Inbound} (h : Sifted queue queue')
    (h₁ : Sifted queue₁ queue₁') : Sifted (queue ++ queue₁) (queue' ++ queue₁') := by
  induction h with
  | nil => exact h₁
  | keep _ ih => exact .keep ih
  | drop hgarbage _ ih => exact .drop hgarbage ih

theorem Sifted.leftOver (h : Sifted queue queue') :
    Sifted (Broker.leftOver more queue) (Broker.leftOver more queue') := by
  unfold Broker.leftOver
  split_ifs
  · exact h
  · exact h.keep

/-- The same is taken, and what is left differs in the garbage only. -/
inductive Taken.Sifted : Taken → Taken → Prop
  | msg {m : JozaMsg} {queue queue' : Inbound} :
      Broker.Sifted queue queue' → Taken.Sifted (.msg m queue) (.msg m queue')
  | malformed {queue queue' : Inbound} :
      Broker.Sifted queue queue' → Taken.Sifted (.malformed queue) (.malformed queue')
  | blocked : Taken.Sifted .blocked .blocked
  | crashed : Taken.Sifted .crashed .crashed

theorem Sifted.taken (h : Sifted queue queue') :
    (jozaMsgRecvFrom queue).Sifted (jozaMsgRecvFrom queue') := by
  induction h with
  | nil =>
    rw [jozaMsgRecvFrom]
    exact .blocked
  | drop hgarbage _ ih =>
    rw [recvFrom_garbage hgarbage]
    exact ih
  | @keep queue queue' frames hrest ih =>
    match frames with
    | [] =>
      rw [jozaMsgRecvFrom, jozaMsgRecvFrom]
      exact ih
    | [_] =>
      rw [jozaMsgRecvFrom, jozaMsgRecvFrom]
      exact .malformed hrest
    | address :: frame :: more =>
      rw [jozaMsgRecvFrom, jozaMsgRecvFrom]
      cases jozaMsgRecv address (frame :: more) with
      -- What is left over may itself be garbage, but is the same on both sides.
      | ok msg => exact .msg hrest.leftOver
      | error err =>
        cases err with
        | garbage => exact ih
        | malformed => exact .malformed hrest.leftOver
        | nullValue => exact .crashed

/-- What becomes of a step when the garbage does not arrive. -/
inductive Ignores : SocketEvent → List SocketEvent → Prop
  | garbage {address frames} (h : isGarbage (address :: frames)) :
      Ignores (.arrive address frames) []
  | nothing {env} : Ignores (.recv env []) []
  | arrive {address frames} (h : isGarbage (address :: frames) = false) :
      Ignores (.arrive address frames) [.arrive address frames]
  | recv {env sent} : Ignores (.recv env sent) [.recv env sent]
  | other {e : Event} : Ignores (.other e) [.other e]

/-- The second broker has the same tables, and less garbage on its socket. -/
structure SocketPoll.Sifted (s u : SocketPoll) : Prop where
  poll : u.poll = s.poll
  inbound : Broker.Sifted s.inbound u.inbound
  waiting : u.waiting = true → s.waiting = true

/-- A step is made without the garbage as well, unless it only deals with garbage. -/
theorem exists_run_sifted (h : s.Sifted u) (hstep : socketSystem.Step s t s') :
    ∃ ks u', socketSystem.Run u ks u' ∧ Ignores t ks ∧ s'.Sifted u' := by
  have htaken := h.inbound.taken
  cases hstep with
  | @arrive address frames =>
    cases hgarbage : isGarbage (address :: frames) with
    | true =>
      have hinbound : Broker.Sifted (s.inbound ++ [address :: frames]) (u.inbound ++ []) :=
        h.inbound.append (.drop hgarbage .nil)
      rw [List.append_nil] at hinbound
      exact ⟨[], u, .nil u, .garbage hgarbage, h.poll, hinbound, h.waiting⟩
    | false =>
      have hone : socketSystem.Step u (.arrive address frames)
          { u with inbound := u.inbound ++ [address :: frames] } := .arrive
      exact ⟨_, _, .single hone, .arrive hgarbage, h.poll, h.inbound.append (.refl _), h.waiting⟩
  | @recv env msg queue poll outs hrun hmsg hproc =>
    rw [hmsg] at htaken
    generalize hu : jozaMsgRecvFrom u.inbound = taken at htaken
    cases htaken with
    | msg hqueue =>
      have hone : socketSystem.Step u (.recv env (outs.map JozaMsg.wire)) _ :=
        .recv (h.poll ▸ hrun) hu (h.poll ▸ hproc)
      exact ⟨_, _, .single hone, .recv, rfl, hqueue, id⟩
  | @malformed env queue hrun hmsg =>
    rw [hmsg] at htaken
    generalize hu : jozaMsgRecvFrom u.inbound = taken at htaken
    cases htaken with
    | malformed hqueue =>
      have hone : socketSystem.Step u (.recv env []) _ := .malformed (h.poll ▸ hrun) hu
      exact ⟨_, _, .single hone, .recv, h.poll, hqueue, id⟩
  | @blocked env hrun _ hmsg =>
    rw [hmsg] at htaken
    generalize hu : jozaMsgRecvFrom u.inbound = taken at htaken
    cases htaken
    -- Where there is garbage only, nothing is readable without it.
    by_cases hempty : u.inbound = []
    · exact ⟨[], u, .nil u, .nothing, h.poll, hempty ▸ .nil, fun _ => rfl⟩
    · have hone : socketSystem.Step u (.recv env []) _ := .blocked (h.poll ▸ hrun) hempty hu
      exact ⟨_, _, .single hone, .recv, h.poll, .nil, fun _ => rfl⟩
  | @other e poll hno hwait hone =>
    have hone' : socketSystem.Step u (.other e) _ :=
      .other hno (fun hu => hwait (h.waiting hu)) (h.poll ▸ hone)
    exact ⟨_, _, .single hone', .other, rfl, h.inbound, id⟩

/-- **Garbage changes nothing.** To each run there is one in which no garbage arrives, and which
leads to the same tables with the same answers. What is missing in it are fruitless attempts to
receive. -/
theorem garbage_ignored (hrun : socketSystem.Run s ts s') :
    ∃ tss u, socketSystem.Run s tss.flatten u ∧ List.Forall₂ Ignores ts tss ∧
      u.poll = s'.poll := by
  have hstep : ∀ s t s' u, s.Sifted u → socketSystem.Step s t s' →
      ∃ ks u', socketSystem.Run u ks u' ∧ Ignores t ks ∧ s'.Sifted u' :=
    fun s t s' u h hstep => exists_run_sifted h hstep
  -- What waits at the start is the same, garbage or not.
  have hstart : s.Sifted s := ⟨rfl, .refl _, id⟩
  obtain ⟨tss, u, hrun', hignores, h⟩ :=
    hrun.simulate_runs SocketPoll.Sifted Ignores hstep hstart
  exact ⟨tss, u, hrun', hignores, h.poll⟩

/-- Garbage arrives before `A` registers. -/
theorem garbage_ignored_registers : ∃ b tss u, JozaPoll.Step .start registersA b ∧
    socketSystem.Run (JozaPoll.start.facing []) (List.flatten tss) u ∧
      List.Forall₂ Ignores [.arrive [9] [[1, 2, 3]],
        .arrive connectA.address (jozaMsgSend connectA), registersA.onSocket] tss ∧
      u.poll = b := by
  obtain ⟨b, hstep⟩ : ∃ b, JozaPoll.Step .start registersA b := ⟨_, rfl, rfl⟩
  have htaken : jozaMsgRecvFrom [[[9], [1, 2, 3]], connectA.wire] = .msg connectA [] :=
    (recvFrom_garbage (by decide)).trans taken_connectA
  have hrun : socketSystem.Run (JozaPoll.start.facing []) [.arrive [9] [[1, 2, 3]],
      .arrive connectA.address (jozaMsgSend connectA), registersA.onSocket] (b.facing []) :=
    .cons .arrive (.cons .arrive (.single (.recv rfl htaken hstep.2)))
  obtain ⟨tss, u, hrun', hignores, hpoll⟩ := garbage_ignored hrun
  exact ⟨b, tss, u, hstep, hrun', hignores, hpoll⟩

end Broker
end Jozabad
