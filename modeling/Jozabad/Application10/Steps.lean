import Jozabad.Application10.Tasks

/-!
# The steps of the server

In every reachable state the tables list the channels on the heap
(`registered_of_reachable`). So every task and every message to a channel finds the channel
that it is about, and what it does is a script, a call, or the removal of a channel that
has no peer any more (`processMessage_cases`, `timers_cases`, `remove_cases`).
-/

namespace Jozabad
namespace Application10

open Partners

section

variable {σ σ₁ σ' : Server} {now x i : ℕ} {lcn : UInt16} {X : JzChannel} {msg : JzMsg}
  {cause : ClearCause} {diagnostic : UInt8}

/-! ### Scripts -/

/-- A script has been played on the channel `X` at `x`. -/
structure Plays (now x : ℕ) (X : JzChannel) (as : List Act) (σ σ' : Server) : Prop where
  found : σ.heap.get? x = some X
  apart : X.peer ≠ some x
  tame : ∀ a ∈ as, a.Tame
  run : (actSystem now x X).Run σ as σ'

namespace Plays

variable {as : List Act}

theorem shows (h : Plays now x X as σ σ') :
    ∃ d, (duoSystem now x X).Run (σ.duo X) as d ∧ Shows σ x X d σ' :=
  run_shows h.found h.apart h.run

theorem touches (h : Plays now x X as σ σ') : Touches (reach x X) σ σ' :=
  (run_reach h.found h.apart h.tame h.run).1

theorem shrinks (h : Plays now x X as σ σ') :
    Shrinks JzChannel.peer σ.heap.get? σ'.heap.get? :=
  (run_reach h.found h.apart h.tame h.run).2

theorem registered (h : Plays now x X as σ σ') (hσ : σ.Registered) : σ'.Registered :=
  hσ.touches h.touches h.shrinks

end Plays

/-! ### Messages to a channel -/

/-- **A message to a channel** plays a script or makes a call. -/
theorem processMessage_cases (hσ : σ.Registered) (hX : σ.heap.get? x = some X)
    (h : jzChannelProcessMessage now x msg σ = .ok σ') :
    (∃ as, MessageScript X msg as ∧ Plays now x X (as ++ timerActs X.state) σ σ') ∨
      (X.state = .p1Ready ∧ msg.id = .callRequest ∧
        ∃ i lcn, Grants σ X msg i lcn ∧ Calls now x msg i lcn σ σ') := by
  obtain ⟨as, hscript, hrun⟩ | ⟨hs, hid, i, lcn, hconnect⟩ := processMessage_script hX h
  · exact .inl ⟨as, hscript, hX, hσ.peer_ne hX, hscript.tame, hrun⟩
  · exact .inr ⟨hs, hid, i, lcn, hconnect.1, connects_calls hσ hX hid hconnect⟩

/-- The channel of a number is found, or it is opened. -/
theorem findOrOpen_cases (h : findOrOpenChannel i lcn σ = .ok (x, σ₁)) :
    (σ₁ = σ ∧ σ.Listed i lcn x) ∨ (x = σ.next ∧ Opens i lcn σ σ₁) := by
  obtain ⟨C, hC, h⟩ := bind_eq_ok h
  have hC := client_eq_ok hC
  split at h
  · cases h
    exact .inl ⟨rfl, C, hC, ‹_›⟩
  · obtain ⟨σ₂, hopen, h⟩ := bind_eq_ok h
    obtain ⟨_, -, h⟩ := bind_eq_ok h
    cases h
    exact .inr ⟨rfl, openChannel_opens hC ‹_› hopen⟩

/-- Before the message is processed, its channel is there. -/
theorem findOrOpen_spec (hσ : σ.Registered) (h : findOrOpenChannel i lcn σ = .ok (x, σ₁)) :
    σ₁.Registered ∧ ∃ X, σ₁.heap.get? x = some X ∧ X.owner = (i, lcn) := by
  obtain ⟨rfl, hlisted⟩ | ⟨rfl, hopen⟩ := findOrOpen_cases h
  · exact ⟨hσ, hσ.get_of_listed hlisted⟩
  · exact ⟨hσ.opens hopen, _, hopen.get_new, rfl⟩

/-! ### Tasks -/

/-- **A look at a timer** does nothing or plays a script. -/
theorem timers_cases (hσ : σ.Registered) (h : jzChannelCheckTimers now x σ = .ok σ') :
    σ' = σ ∨ ∃ X as, ExpiryScript X as ∧ Plays now x X as σ σ' := by
  obtain ⟨X, hX, -⟩ := bind_eq_ok h
  have hX := channel_eq_ok hX
  obtain hsame | ⟨as, hscript, hrun⟩ := checkTimers_script hX h
  · exact .inl hsame
  · exact .inr ⟨X, as, hscript, hX, hσ.peer_ne hX, hscript.tame, hrun⟩

/-- After a restart neither the channel nor what was its peer has a peer. -/
theorem restartActs_peer {d d' : Duo}
    (hrun : (duoSystem now x X).Run d (restartActs cause diagnostic) d') :
    d'.own.peer = none ∧ ∀ Y', d'.other = some Y' → Y'.peer = none := by
  simp only [restartActs, Lts.Run.cons_iff, Lts.Run.nil_iff, step_own, step_other] at hrun
  obtain ⟨_, rfl, _, rfl, d₃, h₃, _, rfl, rfl⟩ := hrun
  obtain rfl | ⟨y, Y, Y', out, -, hother, heff, rfl⟩ := step_tell_cases h₃
  · refine ⟨rfl, fun Y' hY' => ?_⟩
    obtain ⟨Y₀, -, rfl⟩ := Option.map_eq_some_iff.1 hY'
    rfl
  · obtain ⟨Y₀, -, rfl⟩ := Option.map_eq_some_iff.1 hother
    refine ⟨rfl, fun Y₁ hY₁ => ?_⟩
    obtain rfl : Y' = Y₁ := Option.some.inj hY₁
    obtain hp | hp := heff.keeps.peer
    · exact hp
    · exact hp

/-- The channel `X` at `x` has been restarted, and then removed. -/
structure RestartsAndRemoves (cause : ClearCause) (diagnostic : UInt8) (now x : ℕ) (X : JzChannel)
    (σ σ₁ σ' : Server) : Prop where
  plays : Plays now x X (restartActs cause diagnostic) σ σ₁
  alone : ∃ X₁, σ₁.heap.get? x = some X₁ ∧ X₁.owner = X.owner ∧ X₁.peer = none
  removes : Removes X.parent X.lcn x σ₁ σ'

/-- **A removal** plays the script of a restart, and then removes a channel without a
peer. -/
theorem remove_cases (hσ : σ.Registered)
    (h : (Task.remove cause now i lcn x diagnostic).Does σ σ') :
    ∃ X σ₁, X.owner = (i, lcn) ∧ RestartsAndRemoves cause diagnostic now x X σ σ₁ σ' := by
  obtain ⟨hlisted, σ₁, σ₂, h₁, h₂, h₃⟩ := h
  obtain ⟨X, hX, howner⟩ := hσ.get_of_listed hlisted
  have hplays : Plays now x X (restartActs cause diagnostic) σ σ₁ :=
    ⟨hX, hσ.peer_ne hX, restartActs_tame, restartChannel_script hX h₁⟩
  obtain ⟨d, hd, hshows⟩ := hplays.shows
  obtain ⟨X₁, hX₁, howner₁⟩ := hplays.touches.exists_get hX
  obtain rfl : d.own = X₁ := Option.some.inj (hshows.own.symm.trans hX₁)
  have hpeer : d.own.peer = none := (restartActs_peer hd).1
  obtain ⟨rfl, rfl⟩ := Prod.mk.injEq _ _ _ _ ▸ howner
  exact ⟨X, σ₁, rfl, hplays, ⟨d.own, hX₁, howner₁, hpeer⟩, free_removes hX₁ hpeer h₂ h₃⟩

/-! ### The tables -/

theorem RestartsAndRemoves.registered (h : RestartsAndRemoves cause diagnostic now x X σ σ₁ σ')
    (hσ : σ.Registered) : σ₁.Registered ∧ σ'.Registered := by
  obtain ⟨X₁, hX₁, howner, hpeer⟩ := h.alone
  have hσ₁ : σ₁.Registered := h.plays.registered hσ
  exact ⟨hσ₁, hσ₁.removes h.removes hX₁ howner hpeer⟩

theorem Server.Registered.task {t : Task} (hσ : σ.Registered) (h : t.Does σ σ') :
    σ'.Registered := by
  cases t with
  | clients => exact hσ.clients h.heap h.next h.listed
  | timers now x =>
    obtain rfl | ⟨X, as, -, hplays⟩ := timers_cases hσ h
    · exact hσ
    · exact hplays.registered hσ
  | remove =>
    obtain ⟨X, σ₁, -, hremoves⟩ := remove_cases hσ h
    exact (hremoves.registered hσ).2

theorem Server.Registered.message (hσ : σ.Registered) (hX : σ.heap.get? x = some X)
    (h : jzChannelProcessMessage now x msg σ = .ok σ') : σ'.Registered := by
  obtain ⟨as, -, hplays⟩ | ⟨-, -, i, lcn, -, hcalls⟩ := processMessage_cases hσ hX h
  · exact hplays.registered hσ
  · exact hσ.calls hcalls hX

theorem Server.Registered.event {e : Event} (hσ : σ.Registered) (henabled : e.Enabled σ)
    (h : σ.handle e = .ok σ') : σ'.Registered := by
  obtain ⟨now, i, msg, x, σ₁, -, -, hfind, h⟩ | ⟨ts, hrun, -⟩ := Server.handle_cases henabled h
  · obtain ⟨hσ₁, X, hX, -⟩ := findOrOpen_spec hσ hfind
    exact hσ₁.message hX h
  · exact hrun.preserves Server.Registered hσ fun _ _ _ hσ hstep => hσ.task hstep

/-- **In every reachable state** the tables list the channels on the heap. -/
theorem registered_of_reachable (h : serverSystem.Reachable σ) : σ.Registered := by
  refine h.invariant Server.Registered ?_ ?_
  · rintro σ rfl
    exact .start
  · intro σ e σ' _ hσ ⟨henabled, hhandle⟩
    have hsent : ({ σ with sent := [] } : Server).Registered :=
      hσ.clients rfl rfl fun _ _ _ => Iff.rfl
    exact hsent.event henabled hhandle

/-! ### Steps -/

/-- The channel of the number `lcn` of the client `i` is the channel `X` at `x`, or a new
one is opened there. -/
def Server.Numbers (σ : Server) (i : ℕ) (lcn : UInt16) (x : ℕ) (X : JzChannel) : Prop :=
  (σ.Listed i lcn x ∧ σ.heap.get? x = some X) ∨
    ((∀ y, ¬ σ.Listed i lcn y) ∧ x = σ.next ∧ X = jzChannelNew i lcn)

/-- **The channel `X` at `x` gets the message** `msg` of the event. -/
def Event.Gives (σ : Server) (x : ℕ) (X : JzChannel) (msg : JzMsg) : Event → Prop
  | .message _ i m => m = msg ∧ σ.Delivers i m ∧ σ.Numbers i m.lcn x X
  | _ => False

/-- The channel `X` at `x` has got the message of the event. It was in the server `σ₁`, where
it may have been opened. -/
structure Got (now x : ℕ) (X : JzChannel) (msg : JzMsg) (σ : Server) (e : Event)
    (σ₁ σ' : Server) : Prop where
  gives : e.Gives σ x X msg
  find : findOrOpenChannel X.parent msg.lcn { σ with sent := [] } = .ok (x, σ₁)
  opened : σ₁ = { σ with sent := [] } ∨
    (Opens X.parent X.lcn { σ with sent := [] } σ₁ ∧ X = jzChannelNew X.parent X.lcn)
  registered : σ₁.Registered
  found : σ₁.heap.get? x = some X
  number : X.lcn = msg.lcn
  processed : jzChannelProcessMessage now x msg σ₁ = .ok σ'

theorem Server.Registered.cleared (hσ : σ.Registered) :
    ({ σ with sent := [] } : Server).Registered :=
  hσ.clients rfl rfl fun _ _ _ => Iff.rfl

/-- The channel that is found or opened for a message gets it. -/
theorem DeliversTo.got {now : ℕ} (hσ : σ.Registered) (hdelivers : σ.Delivers i msg)
    (h : DeliversTo now i msg x { σ with sent := [] } σ₁ σ') :
    ∃ X, Got now x X msg σ (.message now i msg) σ₁ σ' := by
  obtain ⟨hfind, hrun⟩ := h
  obtain ⟨rfl, hlisted⟩ | ⟨rfl, hopen⟩ := findOrOpen_cases hfind
  · obtain ⟨X, hX, howner⟩ := hσ.cleared.get_of_listed hlisted
    obtain ⟨rfl, hlcn⟩ := Prod.mk.injEq _ _ _ _ ▸ howner
    exact ⟨X, ⟨rfl, hdelivers, .inl ⟨hlisted, hX⟩⟩, hfind, .inl rfl, hσ.cleared, hX, hlcn, hrun⟩
  · obtain ⟨C, hC, hnone, -⟩ := hopen.clients
    have hnot (y : ℕ) : ¬ σ.Listed i msg.lcn y := by
      rintro ⟨C₀, hC₀, hget⟩
      obtain rfl : C = C₀ := Option.some.inj (hC.symm.trans hC₀)
      rw [hnone] at hget
      cases hget
    exact ⟨jzChannelNew i msg.lcn, ⟨rfl, hdelivers, .inr ⟨hnot, rfl, rfl⟩⟩, hfind,
      .inr ⟨hopen, rfl⟩, hσ.cleared.opens hopen, hopen.get_new, rfl, hrun⟩

/-- **A step** gives a message to a channel, or it is a series of tasks. -/
theorem step_cases {e : Event} (hσ : σ.Registered) (h : serverSystem.Step σ e σ') :
    (∃ now x X msg σ₁, Got now x X msg σ e σ₁ σ') ∨
      Works {x | e.Sweeps σ x} { σ with sent := [] } σ' := by
  obtain ⟨henabled, hhandle⟩ := h
  obtain ⟨now, i, msg, x, σ₁, rfl, hdelivers, hto⟩ | hworks :=
    Server.handle_cases (σ := { σ with sent := [] }) henabled hhandle
  · obtain ⟨X, hgot⟩ := hto.got hσ hdelivers
    exact .inl ⟨now, x, X, msg, σ₁, hgot⟩
  · exact .inr hworks

/-- A message that is delivered goes to one channel. -/
theorem Server.Numbers.unique {X' : JzChannel} {x' : ℕ} (h : σ.Numbers i lcn x X)
    (h' : σ.Numbers i lcn x' X') : x = x' ∧ X = X' := by
  obtain ⟨hlisted, hX⟩ | ⟨hnot, rfl, rfl⟩ := h
  · obtain ⟨hlisted', hX'⟩ | ⟨hnot', -, -⟩ := h'
    · obtain ⟨C, hC, hget⟩ := hlisted
      obtain ⟨C', hC', hget'⟩ := hlisted'
      obtain rfl : C = C' := Option.some.inj (hC.symm.trans hC')
      obtain rfl : x = x' := Option.some.inj (hget.symm.trans hget')
      exact ⟨rfl, Option.some.inj (hX.symm.trans hX')⟩
    · exact absurd hlisted (hnot' x)
  · obtain ⟨hlisted', -⟩ | ⟨-, rfl, rfl⟩ := h'
    · exact absurd hlisted' (hnot x')
    · exact ⟨rfl, rfl⟩

theorem not_restart (hfor : jzMsgIsForChannel msg = true) :
    msg.id ≠ .restartRequest ∧ msg.id ≠ .restartConfirmation := by
  constructor
  · intro hid
    simp [jzMsgIsForChannel, hid] at hfor
  · intro hid
    simp [jzMsgIsForChannel, hid] at hfor

/-- An initialized client's message for a channel is given to it. -/
theorem delivers_spec {now : ℕ} (hdelivers : σ.Delivers i msg)
    (h : jzClientProcessMessage now i msg σ = .ok σ') :
    ∃ x σ₁, DeliversTo now i msg x σ σ₁ σ' := by
  obtain ⟨⟨C, hC, hs⟩, hvalid, hfor⟩ := hdelivers
  obtain ⟨_, -, h⟩ := bind_eq_ok (client_bind_eq_ok hC h)
  have hid := not_restart hfor
  rw [if_pos hvalid] at h
  simp only [hs, jzClientProcessMessageInC4InitializedState, if_neg hid.1, if_neg hid.2,
    if_pos hfor] at h
  obtain ⟨⟨x, σ₁⟩, hfind, h⟩ := bind_eq_ok h
  exact ⟨x, σ₁, hfind, h⟩

/-- **The channel of the message gets it.** -/
theorem Event.Gives.got {e : Event} (h : e.Gives σ x X msg) (hσ : σ.Registered)
    (hstep : serverSystem.Step σ e σ') : ∃ now σ₁, Got now x X msg σ e σ₁ σ' := by
  cases e with
  | connect | badMessage | corrupt | hangup | tick | rehash => exact h.elim
  | message now i m =>
    obtain ⟨rfl, hdelivers, hnumbers⟩ := h
    obtain ⟨x', σ₁, hto⟩ := delivers_spec (σ := { σ with sent := [] }) hdelivers hstep.2
    obtain ⟨X', hgot⟩ := hto.got hσ hdelivers
    obtain ⟨rfl, rfl⟩ := hnumbers.unique hgot.gives.2.2
    exact ⟨now, σ₁, hgot⟩

/-! ### What holds of every channel -/

/-- A property of all channels on the heap. -/
def Server.Every (σ : Server) (P : JzChannel → Prop) : Prop :=
  ∀ x X, σ.heap.get? x = some X → P X

/-- Both channels have a property. -/
structure Duo.Every (d : Duo) (P : JzChannel → Prop) : Prop where
  own : P d.own
  other : ∀ Y, d.other = some Y → P Y

/-- A script of `X` keeps a property of the two channels. -/
def ScriptKeeps (P : JzChannel → Prop) (X : JzChannel) (as : List Act) : Prop :=
  ∀ now x d d', d.own = X → (X.peer = none → d.other = none) → d.Every P →
    (duoSystem now x X).Run d as d' → d'.Every P

variable {P : JzChannel → Prop}

/-- The act keeps a property of the channel. -/
def Act.KeepsOwn (P : JzChannel → Prop) : Act → Prop
  | .own f => ∀ X, P X → P (f X)
  | .self msg => ∀ now X X' out, ServerEffect now X msg X' out → P X → P X'
  | .other _ | .tell _ | .notify _ => True

/-- The act keeps a property of the peer. -/
def Act.KeepsOther (P : JzChannel → Prop) : Act → Prop
  | .other f => ∀ Y, P Y → P (f Y)
  | .tell f => ∀ now Y Y' out, ServerEffect now Y (f Y) Y' out → P Y → P Y'
  | .own _ | .self _ | .notify _ => True

theorem run_own {as : List Act} {d d' : Duo} (hkeeps : ∀ a ∈ as, a.KeepsOwn P)
    (h : (duoSystem now x X).Run d as d') (hd : P d.own) : P d'.own := by
  induction h with
  | nil => exact hd
  | @cons d a d₁ as d' hstep _ ih =>
    rw [List.forall_mem_cons] at hkeeps
    refine ih hkeeps.2 ?_
    -- Two of the acts write to the channel itself.
    cases a with
    | own f =>
      obtain rfl := step_own.1 hstep
      exact hkeeps.1 d.own hd
    | other f =>
      obtain rfl := step_other.1 hstep
      exact hd
    | self msg =>
      obtain ⟨X', out, heff, rfl⟩ := step_self hstep
      exact hkeeps.1 now d.own X' out heff hd
    | tell f =>
      obtain rfl | ⟨y, Y, Y', out, -, -, -, rfl⟩ := step_tell_cases hstep
      · exact hd
      · exact hd
    | notify msg =>
      obtain rfl := step_notify.1 hstep
      exact hd

theorem run_other {as : List Act} {d d' : Duo} (hkeeps : ∀ a ∈ as, a.KeepsOther P)
    (h : (duoSystem now x X).Run d as d') (hd : ∀ Y, d.other = some Y → P Y) :
    ∀ Y, d'.other = some Y → P Y := by
  induction h with
  | nil => exact hd
  | @cons d a d₁ as d' hstep _ ih =>
    rw [List.forall_mem_cons] at hkeeps
    refine ih hkeeps.2 fun Y hY => ?_
    -- Two of the acts write to the peer.
    cases a with
    | own f =>
      obtain rfl := step_own.1 hstep
      exact hd Y hY
    | other f =>
      obtain rfl := step_other.1 hstep
      obtain ⟨Y₀, hY₀, rfl⟩ := Option.map_eq_some_iff.1 hY
      exact hkeeps.1 Y₀ (hd Y₀ hY₀)
    | self msg =>
      obtain ⟨X', out, -, rfl⟩ := step_self hstep
      exact hd Y hY
    | tell f =>
      obtain rfl | ⟨y, Y₀, Y', out, -, hother, heff, rfl⟩ := step_tell_cases hstep
      · exact hd Y hY
      · obtain rfl := Option.some.inj hY
        exact hkeeps.1 now Y₀ Y' out heff (hd Y₀ hother)
    | notify msg =>
      obtain rfl := step_notify.1 hstep
      exact hd Y hY

/-! ### What a peer keeps -/

/-- A property of a channel that it keeps when another channel loses it as a peer, and when the
server gives it a message. -/
structure Enduring (P : JzChannel → Prop) : Prop where
  alone : ∀ Z : JzChannel, P Z → P { Z with peer := none }
  told : ∀ now Z msg Z' out, ServerEffect now Z msg Z' out → P Z → P Z'

namespace Enduring

variable {as : List Act}

/-- A message to the peer is a message of the server. -/
theorem tell (hP : Enduring P) {f : JzChannel → JzMsg} : (Act.tell f).KeepsOther P :=
  fun now Y Y' out heff hY => hP.told now Y _ Y' out heff hY

/-- It is enough to look at what a script writes to the peer. -/
theorem acts (hP : Enduring P) (has : ∀ f, Act.other f ∈ as → ∀ Z, P Z → P (f Z)) :
    ∀ a ∈ as, a.KeepsOther P := by
  intro a ha
  cases a with
  | other f => exact has f ha
  | tell f => exact hP.tell
  | own | self | notify => trivial

theorem punishClearActs (hP : Enduring P) {cause : ClearCause} {diagnostic : Diag} :
    ∀ a ∈ punishClearActs lcn cause diagnostic, a.KeepsOther P :=
  List.forall_mem_cons.2 ⟨trivial, List.forall_mem_cons.2 ⟨hP.alone,
    List.forall_mem_singleton.2 hP.tell⟩⟩

theorem timerActs (hP : Enduring P) (s : ChannelState) : ∀ a ∈ timerActs s, a.KeepsOther P := by
  refine hP.acts fun f hf => ?_
  cases s <;> simp [Application10.timerActs, resetTimerAct] at hf

theorem message (hP : Enduring P) (h : MessageScript X msg as) :
    ∀ a ∈ as ++ Application10.timerActs X.state, a.KeepsOther P := by
  refine List.forall_mem_append.2 ⟨?_, hP.timerActs X.state⟩
  cases h with
  | punishClear => exact hP.punishClearActs
  | ignored | clear | punishReset | accept | collide | confirmClear | reset | confirmReset | data
    | rr | rnr =>
    refine hP.acts fun f hf => ?_
    simp [clearActs, punishResetActs, acceptActs, collideActs, confirmClearActs, resetActs,
      confirmResetActs, dataActs, receiptActs] at hf

theorem restart (hP : Enduring P) {cause : ClearCause} :
    ∀ a ∈ restartActs cause diagnostic, a.KeepsOther P :=
  List.forall_mem_cons.2 ⟨trivial, List.forall_mem_cons.2 ⟨hP.alone, List.forall_mem_cons.2
    ⟨hP.tell, List.forall_mem_singleton.2 trivial⟩⟩⟩

/-- Only the last timer of a clear writes to the peer, which it sets ready. -/
theorem expiry (hP : Enduring P) (h : ExpiryScript X as)
    (hlast : X.timerType ≠ .clearIndication ∨ X.timerCount + 1 ≠ 2) :
    ∀ a ∈ as, a.KeepsOther P := by
  cases h with
  | incomingCall =>
    exact List.forall_mem_cons.2 ⟨trivial, List.forall_mem_cons.2 ⟨trivial, hP.punishClearActs⟩⟩
  | firstReset =>
    refine hP.acts fun f hf => ?_
    simp [countAct, punishResetActs] at hf
  | lastReset | firstClear => exact List.forall_mem_cons.2 ⟨trivial, hP.punishClearActs⟩
  | lastClear htimer hcount =>
    obtain hne | hne := hlast
    · exact absurd htimer hne
    · exact absurd hcount hne

end Enduring

/-! ### A property of all channels -/

/-- A script all of whose acts keep the property. -/
theorem ScriptKeeps.of_acts {as : List Act}
    (h : ∀ a ∈ as, a.KeepsOwn P ∧ a.KeepsOther P) : ScriptKeeps P X as :=
  fun _ _ _ _ _ _ hd hrun =>
    ⟨run_own (fun a ha => (h a ha).1) hrun hd.own,
      run_other (fun a ha => (h a ha).2) hrun hd.other⟩

theorem Plays.every {as : List Act} (h : Plays now x X as σ σ') (hscript : ScriptKeeps P X as)
    (hσ : σ.Every P) : σ'.Every P := by
  obtain ⟨d, hd, hshows⟩ := h.shows
  have hduo : (σ.duo X).Every P := by
    refine ⟨hσ x X h.found, fun Y hY => ?_⟩
    obtain ⟨y, -, hY⟩ := Option.bind_eq_some_iff.1 hY
    exact hσ y Y hY
  have hd' : d.Every P := by
    refine hscript now x _ d rfl (fun hnone => ?_) hduo hd
    rw [Server.duo, hnone, Option.bind_none]
  -- A channel is one of the pair, or it is as it was.
  intro z Z hZ
  by_cases hzx : z = x
  · subst hzx
    obtain rfl : d.own = Z := Option.some.inj (hshows.own.symm.trans hZ)
    exact hd'.own
  by_cases hz : X.peer = some z
  · exact hd'.other Z ((hshows.other z hz).symm.trans hZ)
  · exact hσ z Z ((hshows.frame z hzx hz).symm.trans hZ)

theorem Opens.every (h : Opens i lcn σ σ') (hnew : P (jzChannelNew i lcn)) (hσ : σ.Every P) :
    σ'.Every P := by
  intro z Z hZ
  by_cases hz : z = σ.next
  · subst hz
    obtain rfl := Option.some.inj (h.get_new.symm.trans hZ)
    exact hnew
  · exact hσ z Z ((h.get_of_ne hz).symm.trans hZ)

theorem Removes.every (h : Removes i lcn x σ σ') (hσ : σ.Every P) : σ'.Every P := by
  intro z Z hZ
  by_cases hz : z = x
  · subst hz
    rw [h.heap, Table.get?_remove_self] at hZ
    cases hZ
  · exact hσ z Z ((h.get_of_ne hz).symm.trans hZ)

theorem Calls.every (h : Calls now x msg i lcn σ σ') (hX : σ.heap.get? x = some X)
    (hown : P (X.calling σ.next msg)) (hother : P (calledChannel now x i lcn msg))
    (hσ : σ.Every P) : σ'.Every P := by
  intro z Z hZ
  by_cases hzx : z = x
  · subst hzx
    obtain rfl := Option.some.inj ((h.own X hX).symm.trans hZ)
    exact hown
  by_cases hz : z = σ.next
  · subst hz
    obtain rfl := Option.some.inj (h.other.symm.trans hZ)
    exact hother
  · exact hσ z Z ((h.frame z hzx hz).symm.trans hZ)

/-- A property that new channels have, and that calls, timers and restarts keep. -/
structure Kept (P : JzChannel → Prop) : Prop where
  new : ∀ i lcn, P (jzChannelNew i lcn)
  calling : ∀ y msg X, X.state = .p1Ready → P X → P (X.calling y msg)
  called : ∀ now x i lcn msg, P (calledChannel now x i lcn msg)
  expiry : ∀ X as, ExpiryScript X as → ScriptKeeps P X as
  restart : ∀ X cause diagnostic, ScriptKeeps P X (restartActs cause diagnostic)

theorem Kept.task {t : Task} (hP : Kept P) (hσ : σ.Registered) (h : t.Does σ σ')
    (hevery : σ.Every P) : σ'.Every P := by
  cases t with
  | clients =>
    unfold Server.Every
    rw [h.heap]
    exact hevery
  | timers now x =>
    obtain rfl | ⟨X, as, hscript, hplays⟩ := timers_cases hσ h
    · exact hevery
    · exact hplays.every (hP.expiry X as hscript) hevery
  | remove =>
    obtain ⟨X, σ₁, -, hremoves⟩ := remove_cases hσ h
    exact hremoves.removes.every (hremoves.plays.every (hP.restart X _ _) hevery)

/-- A message to a channel keeps the property, if the script that it plays does. -/
theorem Kept.message (hP : Kept P) (hσ : σ.Registered) (hX : σ.heap.get? x = some X)
    (hscript : ∀ as, MessageScript X msg as → ScriptKeeps P X (as ++ timerActs X.state))
    (h : jzChannelProcessMessage now x msg σ = .ok σ') (hevery : σ.Every P) : σ'.Every P := by
  obtain ⟨as, has, hplays⟩ | ⟨hs, -, i, lcn, -, hcalls⟩ := processMessage_cases hσ hX h
  · exact hplays.every (hscript as has) hevery
  · exact hcalls.every hX (hP.calling _ msg X hs (hevery x X hX)) (hP.called _ _ _ _ _) hevery

theorem Kept.works {xs : Set ℕ} (hP : Kept P) (hσ : σ.Registered) (h : Works xs σ σ')
    (hevery : σ.Every P) : σ'.Every P := by
  obtain ⟨ts, hrun, -⟩ := h
  have hboth := hrun.preserves (fun τ => τ.Registered ∧ τ.Every P) ⟨hσ, hevery⟩
    fun _ _ _ hτ hstep => ⟨hτ.1.task hstep, hP.task hτ.1 hstep hτ.2⟩
  exact hboth.2

/-- **A step keeps the property**, if the script of a message does. -/
theorem Kept.step {e : Event} (hP : Kept P) (hσ : σ.Registered)
    (hscript : ∀ x X msg as, e.Gives σ x X msg → MessageScript X msg as →
      ScriptKeeps P X (as ++ timerActs X.state))
    (h : serverSystem.Step σ e σ') (hevery : σ.Every P) : σ'.Every P := by
  obtain ⟨now, x, X, msg, σ₁, hgot⟩ | hworks := step_cases hσ h
  · refine hP.message hgot.registered hgot.found (fun as => hscript x X msg as hgot.gives)
      hgot.processed ?_
    obtain rfl | ⟨hopen, -⟩ := hgot.opened
    · exact hevery
    · exact hopen.every (hP.new _ _) hevery
  · exact hP.works hσ.cleared hworks hevery

end

end Application10
end Jozabad
