import Jozabad.Application10.BufferSafety
import Jozabad.Application10.Progress
import Jozabad.Application10.Refinement

/-!
# What the clients can do with bytes

The results about events are results about bytes, since reads come to events
(`Application10/Refinement`). As long as no joined call is cleared, no read of any bytes makes
the server follow a pointer that leads nowhere (`host_memory_safe`). If moreover no client
registers with a directionality without a name, it is known what the host survives: all but the
envelopes that the parser fails on, and the messages that stall the server
(`host_survives_iff`).
-/

namespace Jozabad
namespace Application10

/-- No joined call is cleared. -/
def KeepsCalls (σ : Server) (e : Event) : Prop :=
  ¬ e.ClearsJoined σ

/-- No joined call is cleared, and no directionality without a name is registered. -/
def KeepsOrder (σ : Server) (e : Event) : Prop :=
  ¬ e.ClearsJoined σ ∧ ¬ e.Unnames σ

/-- The event does not stall the server. -/
def Endures (σ : Server) (e : Event) : Prop :=
  ¬ e.Chokes σ

/-- What the main loop can do next with the host. -/
def HostEvent.Enabled (h : Host) : HostEvent → Prop
  | .read _ i _ => h.server.HasSource i
  | .other e => e.NoRead ∧ e.Enabled h.server

/-- The parser gets through what is read. -/
def HostEvent.Parses (crc32 : List UInt8 → UInt32) (h : Host) : HostEvent → Prop
  | .read _ i socket =>
    ∃ r, jzClientInputAvailableCallback crc32 socket (h.input i).kept = .ok r
  | .other _ => True

section

variable {crc32 : List UInt8 → UInt32} {σ σ' : Server} {log : List Sent} {e : Event}
  {es : List Event} {i : ℕ} {clock : ℕ → ℕ} {socket s : List UInt8} {h : Host}
  {t : HostEvent} {C : JzClientInput} {fuel : ℕ} {fault : Fault}

/-! ### Conditions on events -/

theorem logFree_keepsCalls : LogFree KeepsCalls := by
  intro σ log e
  cases e with
  | connect | message | badMessage | corrupt | hangup | tick | rehash => exact Iff.rfl

theorem logFree_keepsOrder : LogFree KeepsOrder := by
  intro σ log e
  refine and_congr (logFree_keepsCalls σ log e) (not_congr ?_)
  cases e with
  | connect | badMessage | corrupt | hangup | tick | rehash => exact Iff.rfl
  | message now i msg =>
    refine and_congr_left fun _ => ?_
    exact ⟨fun h => ⟨h.client, h.connect, h.valid, h.free⟩,
      fun h => ⟨h.client, h.connect, h.valid, h.free⟩⟩

/-! ### The parser -/

/-- The parser reads nothing but its buffer. -/
theorem safe_parse (hne : s ≠ []) (hlen : s.length ≤ CLIENT_RECV_BUFFER_SIZE) :
    FailsOnly .assertFailed (jzBufferParseIntoMessage crc32 s) fun _ => True := by
  refine ⟨fun fault hparse => ?_, fun _ _ => trivial⟩
  obtain hfailed | ⟨hmore, -⟩ := (parse_error hne hlen hparse).parse hlen
  · exact Except.error.inj (hparse.symm.trans hfailed)
  · cases hparse.symm.trans hmore

theorem safe_parseLoop (hfuel : C.recvBuffer.length ≤ fuel)
    (hlen : C.recvBuffer.length ≤ CLIENT_RECV_BUFFER_SIZE) :
    FailsOnly .assertFailed (jzClientParseRecvBufferIntoMessages crc32 fuel C)
      fun _ => True := by
  induction fuel generalizing C with
  | zero =>
    have hempty : C.recvBuffer.isEmpty = true := by
      rw [List.isEmpty_iff_length_eq_zero]
      omega
    unfold jzClientParseRecvBufferIntoMessages
    rw [if_pos hempty]
    exact .ok trivial
  | succ fuel ih =>
    unfold jzClientParseRecvBufferIntoMessages
    split
    · exact .ok trivial
    rename_i hempty
    have hne : C.recvBuffer ≠ [] := fun hnil => hempty (List.isEmpty_iff.2 hnil)
    refine FailsOnly.bind (safe_parse hne hlen).result fun r hr => ?_
    -- What has been parsed is taken off the buffer.
    have hdrop (hpos : 0 < r.siz) : (C.recvBuffer.drop r.siz).length ≤ fuel ∧
        (C.recvBuffer.drop r.siz).length ≤ CLIENT_RECV_BUFFER_SIZE := by
      rw [List.length_drop]
      omega
    obtain ⟨-, rfl | rfl | ⟨hpos, hfatal⟩⟩ := parse_bounds hne hr.1
    · exact .ok trivial
    · exact .ok trivial
    · rw [hfatal, if_neg Bool.false_ne_true]
      split
      · exact ih (hdrop hpos).1 (hdrop hpos).2
      · split
        · exact ih (hdrop hpos).1 (hdrop hpos).2
        · exact .ok trivial

theorem safe_callback :
    FailsOnly .assertFailed (jzClientInputAvailableCallback crc32 socket C) fun _ => True := by
  have hread : FailsOnly .assertFailed (jzClientReadIntoRecvBuffer socket C)
      fun r => r.2.recvBuffer.length ≤ CLIENT_RECV_BUFFER_SIZE := by
    refine FailsOnly.bind safe_assertThat.result fun _ hroom => .ok ?_
    have hlt := of_decide_eq_true (eq_true_of_assertThat hroom.1)
    rw [List.length_append, List.length_take]
    omega
  refine hread.bind fun r hlen => FailsOnly.bind (safe_parseLoop le_rfl hlen) fun r' _ => ?_
  obtain ⟨valid, C'⟩ := r'
  cases valid with
  | true => exact .ok trivial
  | false => exact .ok trivial

/-! ### The events of a read -/

/-- **No event of a read** follows a pointer that leads nowhere. -/
theorem safe_handleAll (hes : ∀ e ∈ es, e.OfRead i ∧ e.Parsed)
    (hreach : (serverSystem.restrict KeepsCalls).Reachable σ) (hsource : σ.HasSource i)
    (hmeet : AllMeet KeepsCalls es { σ with sent := log }) :
    FailsOnly .assertFailed (({ σ with sent := log } : Server).handleAll es)
      fun _ => True := by
  induction es generalizing σ log with
  | nil => exact .ok trivial
  | cons e es ih =>
    rw [List.forall_mem_cons] at hes
    obtain ⟨⟨hread, hparsed⟩, hes⟩ := hes
    obtain ⟨hkeeps, hmeet⟩ := hmeet
    refine ⟨fun fault hfail => ?_, fun _ _ => trivial⟩
    cases hhandle : ({ σ with sent := log } : Server).handle e with
    | error f =>
      have hfault : f = fault :=
        Except.error.inj ((bind_of_eq_error hhandle).symm.trans hfail)
      have henabled : e.Enabled { σ with sent := [] } := enabled_of_ofRead hread hsource
      rw [← hfault]
      exact (safe_handle (secure_of_reachable hreach).cleared henabled hparsed).eq f
        ((follows_handle hread).eq_error hhandle)
    | ok σ₂ =>
      obtain ⟨u, σ₁, hturn, rfl, rfl⟩ := exists_turn hread hsource hhandle
      have hnext := hreach.step ⟨(logFree_keepsCalls _ _ _).1 hkeeps, hturn.1⟩
      have hsource₁ := hasSource_of_step hread hreach.of_restrict hsource hturn.1
      exact (ih hes hnext hsource₁ (hmeet _ hhandle)).eq fault
        ((bind_of_eq_ok hhandle rfl).symm.trans hfail)

/-- **The events of a read** are all handled exactly if none of them stalls the server. -/
theorem exists_handleAll_iff (hes : ∀ e ∈ es, e.OfRead i ∧ e.Parsed)
    (hreach : (serverSystem.restrict KeepsOrder).Reachable σ) (hsource : σ.HasSource i)
    (hmeet : AllMeet KeepsOrder es { σ with sent := log }) :
    (∃ σ', ({ σ with sent := log } : Server).handleAll es = .ok σ') ↔
      AllMeet Endures es { σ with sent := log } := by
  induction es generalizing σ log with
  | nil => exact iff_of_true ⟨_, rfl⟩ trivial
  | cons e es ih =>
    rw [List.forall_mem_cons] at hes
    obtain ⟨⟨hread, hparsed⟩, hes⟩ := hes
    obtain ⟨hkeeps, hmeet⟩ := hmeet
    have henabled : e.Enabled { σ with sent := log } := enabled_of_ofRead hread hsource
    have hendures : (∃ σ', ({ σ with sent := log } : Server).handle e = .ok σ') ↔
        Endures { σ with sent := log } e :=
      exists_handle_iff ((robust_of_reachable hreach).logged log) henabled hparsed
    -- The rest begins where the first event has led to.
    have hrest {σ₂ : Server} (hhandle : ({ σ with sent := log } : Server).handle e = .ok σ₂) :
        (∃ σ', σ₂.handleAll es = .ok σ') ↔ AllMeet Endures es σ₂ := by
      obtain ⟨u, σ₁, hturn, rfl, rfl⟩ := exists_turn hread hsource hhandle
      exact ih hes (hreach.step ⟨(logFree_keepsOrder _ _ _).1 hkeeps, hturn.1⟩)
        (hasSource_of_step hread hreach.of_restrict hsource hturn.1) (hmeet _ hhandle)
    constructor
    · rintro ⟨σ', hall⟩
      obtain ⟨σ₂, hhandle, hall⟩ := bind_eq_ok hall
      refine ⟨hendures.1 ⟨σ₂, hhandle⟩, fun σ₃ hhandle' => ?_⟩
      obtain rfl := Except.ok.inj (hhandle.symm.trans hhandle')
      exact (hrest hhandle).1 ⟨σ', hall⟩
    · rintro ⟨hone, hall⟩
      obtain ⟨σ₂, hhandle⟩ := hendures.2 hone
      obtain ⟨σ', hall⟩ := (hrest hhandle).2 (hall σ₂ hhandle)
      exact ⟨σ', bind_of_eq_ok hhandle hall⟩

/-! ### The host -/

theorem oneClient_reachable_of {ok : Server → Event → Prop} (hok : ok {} .connect) :
    ((hostSystem crc32).restrict fun h t => h.Meets crc32 ok t).Reachable oneClient :=
  .step (.init rfl) ⟨meets_connect hok, step_connect⟩

/-- An envelope with a size that overflows. -/
def overflowBytes : List UInt8 :=
  [0x43, 0x56, 0x53, 0x7e, 0xff, 0xff, 0xff, 0xff, 0, 0, 0, 0]

end

end Application10
end Jozabad
