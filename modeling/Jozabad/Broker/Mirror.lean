import Jozabad.Broker.FlowControl

/-!
# The two sides of a call

Once a call is set up, its two workers are to be treated alike. Here X and Y are
exchanged: `Channel.swap` exchanges the two halves of a channel, and `Mirrors` says
that a message of Y on the swapped channel does to it what the message does when it
comes from X on the original one. The connections are exchanged with the halves, so
that the same connection is sent the same messages.

* `mirror_symmetry` says for which message types this is so in which state. The
  lists of `mirrored` are exact.
* The reset by the broker never is (`doReset` waits for X, whichever side has made
  the mistake). The rows of the two tables differ in a number of cells, and those of
  Y stop one column short, which moves the cells for `DIAGNOSTIC` and
  `DIRECTORY_REQUEST` and leaves none for `DIRECTORY`.
* While the call is being reset, four message types are treated alike but for the
  diagnostic, which names the state (`differsInDiag`).
-/

namespace Jozabad
namespace Broker

open JozaMsg

/-! ### Exchanging the sides -/

/-- Exchange the X and the Y variant of a state. -/
def State.swap : State → State
  | .xCallRequest => .yCallRequest
  | .yCallRequest => .xCallRequest
  | .xClearRequest => .yClearRequest
  | .yClearRequest => .xClearRequest
  | .xResetRequest => .yResetRequest
  | .yResetRequest => .xResetRequest
  | .ready => .ready
  | .dataTransfer => .dataTransfer
  | .callCollision => .callCollision

/-- The action for Y that corresponds to an action for X. -/
def Action.swap : Action → Action
  | .xDisconnect => .yDisconnect
  | .xClearRequest => .yClearRequest
  | .xClearConfirmation => .yClearConfirmation
  | .xData => .yData
  | .xRr => .yRr
  | .xRnr => .yRnr
  | .xReset => .yReset
  | .xResetConfirmation => .yResetConfirmation
  | a => a

/-- Exchange the two halves of a channel. If the pointer to the name of Y refers to
nothing, the names stay where they are. -/
def Channel.swap (c : Channel) : Channel :=
  { c with
    xzaddr := c.yzaddr
    yzaddr := c.xzaddr
    xname := c.yname.text.getD c.xname
    yname := { c.yname with text := c.yname.text.map fun _ => c.xname }
    state := c.state.swap
    xps := c.yps
    xpr := c.ypr
    yps := c.xps
    ypr := c.xpr }

theorem State.swap_swap (s : State) : s.swap.swap = s := by
  cases s <;> rfl

theorem Channel.swap_swap (c : Channel) : c.swap.swap = c := by
  obtain ⟨lcn, xzaddr, yzaddr, xname, ⟨hi, text⟩, state, xps, xpr, yps, ypr, window, pkt, tput⟩ := c
  cases text <;> simp [Channel.swap, State.swap_swap]

/-- What a dispatch gives, or a fault. -/
abbrev Dispatched := Except Fault (Channel × List JozaMsg)

/-- Exchange the halves of the channel that a dispatch gives. -/
def Dispatched.swap (res : Dispatched) : Dispatched :=
  res.map fun p => (p.1.swap, p.2)

/-- Forget the diagnostics of the messages sent. -/
def Dispatched.sansDiag (res : Dispatched) : Dispatched :=
  res.map fun p => (p.1, p.2.map fun o => { o with diagnostic := 0 })

section Mirror

variable (c : Channel) (sock : Sock) (M : JozaMsg)

/-- A message of Y on the swapped channel does what the message does when it comes from
X on the original one. -/
def Mirrors : Prop :=
  channelDispatch c.swap sock M true = Dispatched.swap (channelDispatch c sock M false)

/-- The same up to the diagnostics of the messages sent. -/
def MirrorsUpToDiag : Prop :=
  Dispatched.sansDiag (channelDispatch c.swap sock M true) =
    Dispatched.sansDiag (Dispatched.swap (channelDispatch c sock M false))

variable {c sock M}

theorem Mirrors.upToDiag (h : Mirrors c sock M) : MirrorsUpToDiag c sock M :=
  congrArg Dispatched.sansDiag h

end Mirror

/-! ### What is mirrored -/

/-- The states of a call that has been set up. -/
def afterSetup : List State :=
  [.dataTransfer, .xClearRequest, .yClearRequest, .xResetRequest, .yResetRequest]

/-- The message types of X that are treated in a state as those of Y are in the
swapped one. -/
def mirrored : State → List MsgId
  | .dataTransfer =>
    [.data, .rr, .rnr, .callRequest, .callAccepted, .clearRequest, .clearConfirmation,
      .resetRequest, .disconnect, .directoryRequest, .enq, .ack]
  | .xClearRequest => [.clearRequest, .disconnect, .diagnostic, .enq, .ack]
  | .yClearRequest => [.clearRequest, .clearConfirmation, .disconnect, .enq, .ack]
  | .xResetRequest => [.clearRequest, .resetRequest, .disconnect, .enq, .ack]
  | .yResetRequest =>
    [.data, .rr, .rnr, .clearRequest, .resetRequest, .resetConfirmation, .disconnect, .enq, .ack]
  | .ready | .xCallRequest | .yCallRequest | .callCollision => []

/-- The message types that are treated alike but for the diagnostic. -/
def differsInDiag : State → List MsgId
  | .xResetRequest | .yResetRequest =>
    [.callRequest, .callAccepted, .clearConfirmation, .directoryRequest]
  | .ready | .xCallRequest | .yCallRequest | .dataTransfer | .callCollision | .xClearRequest
  | .yClearRequest => []

/-- The actions that do the same for both sides. -/
def sameForBoth : List Action :=
  [.discard, .xDisconnect, .xClearRequest, .xClearConfirmation, .xData, .xRr, .xRnr, .xReset,
    .xResetConfirmation]

/-- **The cells that are mirrored**, where the tables have a column for the message. -/
theorem cells_mirrored : ∀ s ∈ afterSetup, ∀ id ∈ mirrored s, id.code < ACTION_MESSAGE_COUNT →
    actionTable s.swap id.code true = (actionTable s id.code false).swap ∧
      (actionTable s id.code false ∈ sameForBoth ∨
        actionTable s id.code false = .clear ∧ s = .dataTransfer) := by
  decide

/-- The cells that differ in the diagnostic clear the call for both sides. -/
theorem cells_differsInDiag : ∀ s, ∀ id ∈ differsInDiag s,
    id.code < ACTION_MESSAGE_COUNT ∧ actionTable s id.code false = .clear ∧
      actionTable s.swap id.code true = .clear ∧
        (STATE2DIAG s.swap).code ≠ (STATE2DIAG s).code := by
  decide

/-- **The other cells.** -/
theorem cells_unlike : ∀ s ∈ afterSetup, ∀ id, id ∉ mirrored s ++ differsInDiag s →
    id.code < ACTION_MESSAGE_COUNT ∧
      (actionTable s id.code false = .reset ∧ actionTable s.swap id.code true = .reset ∨
        actionTable s id.code false = .discard ∧
          (actionTable s.swap id.code true = .clear ∨ actionTable s.swap id.code true = .reset ∨
            actionTable s.swap id.code true = .unspecified) ∨
        actionTable s id.code false = .clear ∧
          (actionTable s.swap id.code true = .discard ∨
            actionTable s.swap id.code true = .unspecified)) := by
  decide

variable {c : Channel} {sock : Sock} {M : JozaMsg} {yname : CString}

theorem Channel.swap_yname (hname : c.yname.text = some yname) :
    c.swap.yname.text = some c.xname := by
  show c.yname.text.map (fun _ => c.xname) = _
  rw [hname, Option.map_some]

/-! ### Mirrored cells -/

theorem doIClearRequest_swap {self other : Frame} {s : State} :
    doIClearRequest self other M true s.swap =
      ((doIClearRequest self other M false s).1.swap,
        (doIClearRequest self other M false s).2) := by
  unfold doIClearRequest
  split_ifs <;> rfl

/-- The two data actions read the counters of the two sides in the same way. -/
theorem data_mirrored :
    (doIData c.swap.yzaddr c.swap.xzaddr M c.swap.pkt c.swap.window c.swap.yps c.swap.ypr
        c.swap.xps c.swap.xpr >>= fun p =>
      Except.ok ({ c.swap with yps := p.1, ypr := p.2.1 }, p.2.2)) =
    Dispatched.swap
      (doIData c.xzaddr c.yzaddr M c.pkt c.window c.xps c.xpr c.yps c.ypr >>= fun p =>
        Except.ok ({ c with xps := p.1, xpr := p.2.1 }, p.2.2)) := by
  show (doIData c.xzaddr c.yzaddr M c.pkt c.window c.xps c.xpr c.yps c.ypr >>= _) = _
  cases doIData c.xzaddr c.yzaddr M c.pkt c.window c.xps c.xpr c.yps c.ypr with
  | error f => rfl
  | ok p => rfl

/-- **Corresponding actions that do not name the state** do the same to both sides. -/
theorem mirrors_of_cell (hid : M.id.code < ACTION_MESSAGE_COUNT)
    (hname : c.yname.text = some yname)
    (hcell : actionTable c.swap.state M.id.code true = (actionTable c.state M.id.code false).swap)
    (ha : actionTable c.state M.id.code false ∈ sameForBoth) : Mirrors c sock M := by
  unfold Mirrors channelDispatch
  rw [actionGet_ok hid, actionGet_ok hid, hcell, NamePtr.read_ok hname,
    NamePtr.read_ok (Channel.swap_yname hname)]
  generalize actionTable c.state M.id.code false = a at ha
  simp only [sameForBoth, List.mem_cons, List.not_mem_nil, or_false] at ha
  -- The actions that are written for both sides, one by one.
  rcases ha with rfl | rfl | rfl | rfl | rfl | rfl | rfl | rfl | rfl
  · rfl
  · rfl
  · exact congrArg (fun p => Except.ok ({ c.swap with state := p.1 }, p.2)) doIClearRequest_swap
  · rfl
  · exact data_mirrored
  · rfl
  · rfl
  · rfl
  · rfl

/-- Data transfer is its own mirror image, and so is the clearing of a call in it. -/
theorem mirrors_of_clear (hid : M.id.code < ACTION_MESSAGE_COUNT)
    (hname : c.yname.text = some yname) (hs : c.state = .dataTransfer)
    (hX : actionTable c.state M.id.code false = .clear)
    (hY : actionTable c.swap.state M.id.code true = .clear) : Mirrors c sock M := by
  unfold Mirrors
  rw [channelDispatch_clear hid hname hX, channelDispatch_clear hid (Channel.swap_yname hname) hY]
  -- The diagnostic names the state, and data transfer is its own mirror image.
  have hs' : c.swap.state = c.state := by
    show c.state.swap = c.state
    rw [hs]
    rfl
  rw [hs']
  rfl

/-- A message for which the tables have no column fails an assertion. -/
theorem mirrors_of_column (hid : ¬ M.id.code < ACTION_MESSAGE_COUNT) : Mirrors c sock M := by
  unfold Mirrors channelDispatch actionGet
  simp only [hid, decide_false]
  rfl

/-- A dispatch that cannot follow the name of Y goes wrong for both sides. -/
theorem mirrors_of_wild (hname : c.yname.text = none) : Mirrors c sock M := by
  by_cases hid : M.id.code < ACTION_MESSAGE_COUNT
  · -- The mirror image has no name either, so both sides fault.
    have hname' : c.swap.yname.text = none := by
      show c.yname.text.map (fun _ => c.xname) = _
      rw [hname, Option.map_none]
    unfold Mirrors channelDispatch NamePtr.read
    rw [actionGet_ok hid, actionGet_ok hid, hname, hname']
    rfl
  · exact mirrors_of_column hid

theorem mirrors_of_mem (hs : c.state ∈ afterSetup) (hmem : M.id ∈ mirrored c.state) :
    Mirrors c sock M := by
  by_cases hid : M.id.code < ACTION_MESSAGE_COUNT
  · cases hname : c.yname.text with
    | none => exact mirrors_of_wild hname
    | some yname =>
      -- The two cells hold the same action for both sides, or both clear the call.
      obtain ⟨hcell, ha | ⟨ha, hdata⟩⟩ := cells_mirrored c.state hs M.id hmem hid
      · exact mirrors_of_cell hid hname hcell ha
      · rw [ha] at hcell
        exact mirrors_of_clear hid hname hdata ha hcell
  · exact mirrors_of_column hid

/-! ### Cells that name the state -/

theorem clear_of_differsInDiag (hname : c.yname.text = some yname)
    (hmem : M.id ∈ differsInDiag c.state) :
    MirrorsUpToDiag c sock M ∧ ¬ Mirrors c sock M := by
  obtain ⟨hid, hX, hY, hdiag⟩ := cells_differsInDiag c.state M.id hmem
  unfold MirrorsUpToDiag Mirrors
  rw [channelDispatch_clear hid hname hX, channelDispatch_clear hid (Channel.swap_yname hname) hY]
  refine ⟨rfl, fun h => hdiag ?_⟩
  have houts := congrArg (fun res => res.toOption.map fun p => p.2.map (·.diagnostic)) h
  exact (List.cons.inj (Option.some.inj houts)).1

/-! ### Cells that are not mirrored -/

/-- The state that a dispatch leads to, and how many messages it sends. -/
def Dispatched.glance (res : Dispatched) : Option (State × ℕ) :=
  res.toOption.map fun p => (p.1.state, p.2.length)

theorem glance_sansDiag (res : Dispatched) :
    Dispatched.glance (Dispatched.sansDiag res) = Dispatched.glance res := by
  cases res with
  | error f => rfl
  | ok p =>
    show some (p.1.state, (p.2.map _).length) = some (p.1.state, p.2.length)
    rw [List.length_map]

theorem glance_swap (res : Dispatched) :
    Dispatched.glance (Dispatched.swap res) =
      (Dispatched.glance res).map fun p => (p.1.swap, p.2) := by
  cases res <;> rfl

theorem glance_of_mirrors (h : MirrorsUpToDiag c sock M) :
    Dispatched.glance (channelDispatch c.swap sock M true) =
      (Dispatched.glance (channelDispatch c sock M false)).map fun p => (p.1.swap, p.2) := by
  have hglance := congrArg Dispatched.glance h
  rwa [glance_sansDiag, glance_sansDiag, glance_swap] at hglance

/-- **Cells that are unlike** lead to different states, or send a different number of
messages. -/
theorem not_mirrors_of_unlike (hs : c.state ∈ afterSetup) (hname : c.yname.text = some yname)
    (hmem : M.id ∉ mirrored c.state ++ differsInDiag c.state) : ¬ MirrorsUpToDiag c sock M := by
  intro h
  have hglance := glance_of_mirrors h
  have hname' := Channel.swap_yname hname
  obtain ⟨hid, hcells⟩ := cells_unlike c.state hs M.id hmem
  -- The table has another action for Y, so that the outcomes differ at a glance.
  rcases hcells with ⟨hX, hY⟩ | ⟨hX, hY | hY | hY⟩ | ⟨hX, hY | hY⟩
  · -- The broker waits for X on either side.
    rw [channelDispatch_reset hid hname hX, channelDispatch_reset hid hname' hY] at hglance
    cases hglance
  · rw [channelDispatch_discard hid hname hX, channelDispatch_clear hid hname' hY] at hglance
    cases congrArg (Option.map Prod.snd) hglance
  · rw [channelDispatch_discard hid hname hX, channelDispatch_reset hid hname' hY] at hglance
    cases congrArg (Option.map Prod.snd) hglance
  · rw [channelDispatch_discard hid hname hX, channelDispatch_unspecified hid hname' hY] at hglance
    cases hglance
  · rw [channelDispatch_clear hid hname hX, channelDispatch_discard hid hname' hY] at hglance
    cases congrArg (Option.map Prod.snd) hglance
  · rw [channelDispatch_clear hid hname hX, channelDispatch_unspecified hid hname' hY] at hglance
    cases hglance

/-! ### The law -/

/-- **Mirror symmetry, exactly.** In a call that has been set up, a message does the same
from both sides if and only if its type is one that the tables mirror in this state, or
the name of Y cannot be read at all; and it does the same but for the diagnostics sent
if and only if besides it may be one of those for which the broker clears the call and
names the state. -/
theorem mirror_symmetry {c : Channel} {sock : Sock} {M : JozaMsg} (hs : c.state ∈ afterSetup) :
    (Mirrors c sock M ↔ c.yname.text = none ∨ M.id ∈ mirrored c.state) ∧
      (MirrorsUpToDiag c sock M ↔
        c.yname.text = none ∨ M.id ∈ mirrored c.state ++ differsInDiag c.state) := by
  cases hname : c.yname.text with
  -- Without a name to compare with, both sides fail.
  | none =>
    have h : Mirrors c sock M := mirrors_of_wild hname
    exact ⟨iff_of_true h (.inl rfl), iff_of_true h.upToDiag (.inl rfl)⟩
  | some yname =>
    rw [List.mem_append]
    by_cases hmem : M.id ∈ mirrored c.state
    · have h : Mirrors c sock M := mirrors_of_mem hs hmem
      exact ⟨iff_of_true h (.inr hmem), iff_of_true h.upToDiag (.inr (.inl hmem))⟩
    -- Both sides clear the call, with different diagnostics.
    by_cases hdiag : M.id ∈ differsInDiag c.state
    · have hdiff : MirrorsUpToDiag c sock M ∧ ¬ Mirrors c sock M :=
        clear_of_differsInDiag hname hdiag
      obtain ⟨hup, hno⟩ := hdiff
      exact ⟨iff_of_false hno (by simp [hmem]), iff_of_true hup (.inr (.inr hdiag))⟩
    · have hno : ¬ MirrorsUpToDiag c sock M :=
        not_mirrors_of_unlike hs hname (by simp [hmem, hdiag])
      exact ⟨iff_of_false (fun h => hno h.upToDiag) (by simp [hmem]),
        iff_of_false hno (by simp [hmem, hdiag])⟩

/-- `RR` in data transfer is mirrored. -/
theorem mirror_symmetry_wideCall : Mirrors wideCall {} { id := .rr, pr := 3 } :=
  (mirror_symmetry (by decide)).1.2 (.inr (by decide))

/-- `RESET_CONFIRMATION` in data transfer is not: the broker resets the call, and waits
for X whoever has sent it. -/
theorem mirror_symmetry_broken : ¬ ∀ (c : Channel) (sock : Sock) (M : JozaMsg),
    c.state ∈ afterSetup → Mirrors c sock M := by
  intro hall
  have h := hall wideCall {} { id := .resetConfirmation } (by decide)
  cases congrArg (fun res => res.toOption.map fun p => p.1.state) h

end Broker
end Jozabad
