import Jozabad.Broker.Msg
import Mathlib.Data.Fintype.Prod

/-!
# The broker's action tables (`state.h`, `action.c`)

What the broker does with a message of a worker on a call depends on the state of
the channel, the type of the message and the side it comes from. The two tables
are transcribed row by row, with the columns in the order of the message ids.

`actionTable_fits` reads the tables backwards: which states, message types and
sides can lead to an action. It is checked once over every cell, and everything
later that depends on a cell goes through it.
-/

namespace Jozabad
namespace Broker

/-- The states of a channel. -/
inductive State where
  | ready | xCallRequest | yCallRequest | dataTransfer | callCollision
  | xClearRequest | yClearRequest | xResetRequest | yResetRequest
  deriving DecidableEq, Repr

instance : Fintype State where
  elems := {.ready, .xCallRequest, .yCallRequest, .dataTransfer, .callCollision,
    .xClearRequest, .yClearRequest, .xResetRequest, .yResetRequest}
  complete s := by cases s <;> decide

/-- The state after a clear request of the given side. -/
def STATE_CLEAR_REQUEST (isY : Bool) : State :=
  if isY then .yClearRequest else .xClearRequest

/-- The diagnostic for a message that does not fit the state. -/
def STATE2DIAG : State → Diag
  | .ready => .invalidMessageForStateReady
  | .xCallRequest => .invalidMessageForStateXCallRequest
  | .yCallRequest => .invalidMessageForStateYCallRequest
  | .dataTransfer => .invalidMessageForStateDataTransfer
  | .callCollision => .invalidMessageForStateCallCollision
  | .xClearRequest => .invalidMessageForStateXClearRequest
  | .yClearRequest => .invalidMessageForStateYClearRequest
  | .xResetRequest => .invalidMessageForStateXResetRequest
  | .yResetRequest => .invalidMessageForStateYResetRequest

/-- The codes of the states are mapped onto the codes of the diagnostics by a
shift. -/
theorem STATE2DIAG_code (s : State) :
    (STATE2DIAG s).ctorIdx = s.ctorIdx + Diag.invalidMessageForStateReady.ctorIdx := by
  cases s <;> rfl

/-- The actions the broker may take. -/
inductive Action where
  | unspecified | discard | reset | clear | disconnect | xConnect | xDisconnect | xCallRequest
  | xCallAccepted | xClearRequest | xClearConfirmation | xData | xRr | xRnr | xReset
  | xResetConfirmation | yDisconnect | yCallRequest | yCallAccepted | yCallCollision
  | yClearRequest | yClearConfirmation | yData | yRr | yRnr | yReset | yResetConfirmation
  deriving DecidableEq, Repr

/-- The number of columns of the tables. -/
def ACTION_MESSAGE_COUNT : ℕ := 16

/-- The actions for messages of the caller X. -/
def xActionTable : State → List Action
  | .ready =>
    [.clear, .clear, .clear, .xCallRequest, .clear, .xClearRequest, .clear, .clear, .clear, .clear,
      .clear, .xDisconnect, .clear, .discard, .discard, .discard]
  | .xCallRequest =>
    [.clear, .clear, .clear, .clear, .clear, .xClearRequest, .clear, .clear, .clear, .clear, .clear,
      .xDisconnect, .clear, .discard, .clear, .clear]
  | .yCallRequest =>
    [.clear, .clear, .clear, .clear, .clear, .clear, .clear, .clear, .clear, .clear, .clear,
      .xDisconnect, .clear, .discard, .clear, .clear]
  | .dataTransfer =>
    [.xData, .xRr, .xRnr, .clear, .clear, .xClearRequest, .clear, .xReset, .reset, .reset, .reset,
      .xDisconnect, .reset, .discard, .clear, .clear]
  | .callCollision =>
    [.clear, .clear, .clear, .clear, .clear, .xClearRequest, .clear, .clear, .clear, .clear, .clear,
      .xDisconnect, .clear, .discard, .clear, .clear]
  | .xClearRequest =>
    [.clear, .clear, .clear, .clear, .clear, .discard, .clear, .clear, .clear, .clear, .clear,
      .xDisconnect, .clear, .discard, .clear, .clear]
  | .yClearRequest =>
    [.discard, .discard, .discard, .discard, .discard, .xClearConfirmation, .xClearConfirmation,
      .discard, .discard, .discard, .discard, .xDisconnect, .discard, .discard, .discard, .discard]
  | .xResetRequest =>
    [.reset, .reset, .reset, .clear, .clear, .xClearRequest, .clear, .discard, .reset, .reset,
      .reset, .xDisconnect, .reset, .discard, .clear, .clear]
  | .yResetRequest =>
    [.discard, .discard, .discard, .clear, .clear, .xClearRequest, .clear, .xResetConfirmation,
      .xResetConfirmation, .discard, .discard, .xDisconnect, .discard, .discard, .clear, .clear]

/-- The actions for messages of the callee Y. The rows spell out fifteen of the sixteen
columns. -/
def yActionTable : State → List Action
  | .ready =>
    [.clear, .clear, .clear, .yCallRequest, .clear, .yClearRequest, .clear, .clear, .clear, .clear,
      .clear, .yDisconnect, .clear, .clear, .clear]
  | .xCallRequest =>
    [.clear, .clear, .clear, .yCallCollision, .yCallAccepted, .yClearRequest, .clear, .clear,
      .clear, .clear, .clear, .yDisconnect, .clear, .clear, .clear]
  | .yCallRequest =>
    [.clear, .clear, .clear, .clear, .clear, .yClearRequest, .clear, .clear, .clear, .clear, .clear,
      .yDisconnect, .clear, .clear, .clear]
  | .dataTransfer =>
    [.yData, .yRr, .yRnr, .clear, .clear, .yClearRequest, .clear, .yReset, .reset, .reset, .reset,
      .yDisconnect, .reset, .clear, .clear]
  | .callCollision =>
    [.clear, .clear, .clear, .clear, .yCallAccepted, .yClearRequest, .clear, .clear, .clear, .clear,
      .clear, .yDisconnect, .clear, .clear, .clear]
  | .xClearRequest =>
    [.clear, .clear, .clear, .clear, .clear, .yClearConfirmation, .yClearConfirmation, .clear,
      .clear, .clear, .clear, .yDisconnect, .clear, .clear, .clear]
  | .yClearRequest =>
    [.discard, .discard, .discard, .discard, .discard, .discard, .discard, .discard, .discard,
      .discard, .discard, .yDisconnect, .discard, .discard, .discard]
  | .xResetRequest =>
    [.discard, .discard, .discard, .clear, .clear, .yClearRequest, .clear, .yResetConfirmation,
      .yResetConfirmation, .reset, .reset, .yDisconnect, .reset, .clear, .clear]
  | .yResetRequest =>
    [.reset, .reset, .reset, .clear, .clear, .yClearRequest, .clear, .discard, .reset, .reset,
      .reset, .yDisconnect, .reset, .clear, .clear]

/-- The cell of a table. A cell that the initialiser leaves out is zero, that is
`a_unspecified`. -/
def actionTable (state : State) (msgId : ℕ) (isY : Bool) : Action :=
  (if isY then yActionTable state else xActionTable state).getD msgId .unspecified

/-- Gets the appropriate action for a given state and message type. -/
def actionGet (state : State) (msgId : MsgId) (isY : Bool) : Except Fault Action := do
  assertThat (msgId.code < ACTION_MESSAGE_COUNT)
  return actionTable state msgId.code isY

/-- The actions that close the channel. -/
def Action.closes : Action → Bool
  | .clear | .xDisconnect | .yDisconnect | .xClearConfirmation | .yClearConfirmation => true
  | _ => false

/-! ### Reading the tables backwards -/

/-- The circumstances in which the tables prescribe an action. -/
def actionFits (s : State) (id : MsgId) (isY : Bool) : Action → Bool
  | .unspecified => isY = true ∧ id = .directory
  | .discard | .clear => true
  | .reset => s = .dataTransfer ∨ s = .xResetRequest ∨ s = .yResetRequest
  | .disconnect | .xConnect | .xCallAccepted => false
  | .xCallRequest => isY = false ∧ s = .ready ∧ id = .callRequest
  | .yCallRequest => isY = true ∧ s = .ready ∧ id = .callRequest
  | .xDisconnect => isY = false ∧ id = .disconnect
  | .yDisconnect => isY = true ∧ id = .disconnect
  | .xClearRequest =>
    isY = false ∧ id = .clearRequest ∧ s ≠ .xClearRequest ∧ s ≠ .yClearRequest
  | .yClearRequest =>
    isY = true ∧ id = .clearRequest ∧ s ≠ .xClearRequest ∧ s ≠ .yClearRequest
  | .xClearConfirmation => isY = false ∧ s = .yClearRequest
  | .yClearConfirmation => isY = true ∧ s = .xClearRequest
  | .yCallAccepted => isY = true ∧ id = .callAccepted ∧ (s = .xCallRequest ∨ s = .callCollision)
  | .yCallCollision => isY = true ∧ id = .callRequest ∧ s = .xCallRequest
  | .xData => isY = false ∧ id = .data ∧ s = .dataTransfer
  | .yData => isY = true ∧ id = .data ∧ s = .dataTransfer
  | .xRr => isY = false ∧ id = .rr ∧ s = .dataTransfer
  | .yRr => isY = true ∧ id = .rr ∧ s = .dataTransfer
  | .xRnr => isY = false ∧ id = .rnr ∧ s = .dataTransfer
  | .yRnr => isY = true ∧ id = .rnr ∧ s = .dataTransfer
  | .xReset => isY = false ∧ id = .resetRequest ∧ s = .dataTransfer
  | .yReset => isY = true ∧ id = .resetRequest ∧ s = .dataTransfer
  | .xResetConfirmation => isY = false ∧ s = .yResetRequest
  | .yResetConfirmation => isY = true ∧ s = .xResetRequest

/-- **Every cell of the tables** within the asserted range of columns. -/
theorem actionTable_fits : ∀ (s : State) (id : MsgId) (isY : Bool),
    id.code < ACTION_MESSAGE_COUNT → actionFits s id isY (actionTable s id.code isY) := by
  decide

/-- A worker that leaves closes its call, whatever the state. -/
theorem actionTable_disconnect : ∀ (s : State) (isY : Bool),
    (actionTable s MsgId.disconnect.code isY).closes = true := by
  decide

variable {s : State} {id : MsgId} {isY : Bool} {a : Action}

theorem actionGet_ok (h : id.code < ACTION_MESSAGE_COUNT) :
    actionGet s id isY = .ok (actionTable s id.code isY) := by
  simp only [actionGet, h, decide_true, assertThat_true]
  rfl

theorem actionGet_eq_ok (h : actionGet s id isY = .ok a) :
    id.code < ACTION_MESSAGE_COUNT ∧ actionTable s id.code isY = a := by
  by_cases hid : id.code < ACTION_MESSAGE_COUNT
  · rw [actionGet_ok hid, Except.ok.injEq] at h
    exact ⟨hid, h⟩
  · simp [actionGet, hid, Bind.bind, Except.bind] at h

theorem actionGet_fits (h : actionGet s id isY = .ok a) : actionFits s id isY a := by
  obtain ⟨hid, rfl⟩ := actionGet_eq_ok h
  exact actionTable_fits s id isY hid

end Broker
end Jozabad
