import Jozabad.Application10.Isolation
import Jozabad.Application10.Log
import Jozabad.Application10.Streams

/-!
# Reads are events

The server of `serverSystem` handles one event after the other: a message of a client, a bad
message, a corrupt input. The host has no such events. It reads bytes, and a read may come to any
number of messages, good and bad, that are handled in one go with one log for all of them.

Each step of the host comes to a list of events (`Host.events`): a read to the diagnostics for
bad messages, in order, and behind them to the messages of the queue or to a punishment. The
server that handles these events goes where the host goes, and sends what it sends
(`Host.Refines.step`). So every run of the host is a run of the server (`host_refines`), and what
is shown of all states or of all runs of the server holds of the server that reads bytes. This
includes runs whose events are to meet a condition.
-/

namespace Jozabad
namespace Application10

/-! ### The events of a step -/

/-- The events that a step of the host comes to, if the parser does not fail. -/
def Host.events (crc32 : List UInt8 → UInt32) (h : Host) : HostEvent → List Event
  | .read clock i socket =>
    match jzClientInputAvailableCallback crc32 socket (h.input i).kept with
    | .ok (_, I) => I.replies.map (.badMessage i) ++
        if I.fatal then [.corrupt (clock 0) i]
        else I.incoming.mapIdx fun k msg => .message (clock k) i msg
    | .error _ => []
  | .other e => [e]

/-- The events are handled one after the other, with one log. -/
def Server.handleAll (es : List Event) (σ : Server) : Except Fault Server :=
  es.foldlM Server.handle σ

/-- Each of the events meets `ok` when its turn comes. -/
def AllMeet (ok : Server → Event → Prop) : List Event → Server → Prop
  | [], _ => True
  | e :: es, σ => ok σ e ∧ ∀ σ', σ.handle e = .ok σ' → AllMeet ok es σ'

/-- The events of a step of the host meet `ok`. -/
structure Host.Meets (crc32 : List UInt8 → UInt32) (ok : Server → Event → Prop) (h : Host)
    (t : HostEvent) : Prop where
  events : AllMeet ok (h.events crc32 t) { h.server with sent := [] }

/-- The condition does not look at the log. -/
def LogFree (ok : Server → Event → Prop) : Prop :=
  ∀ (σ : Server) (log : List Sent) (e : Event), ok { σ with sent := log } e ↔ ok σ e

/-- A step of the host, the events that it comes to, and what is sent in it. -/
structure Account where
  step : HostEvent
  events : List Event
  sent : List Sent

/-- The host, with an account of its steps. -/
def accountSystem (crc32 : List UInt8 → UInt32) : Lts Host Account where
  Init h := h = {}
  Step h r h' := (hostSystem crc32).Step h r.step h' ∧ r.events = h.events crc32 r.step ∧
    r.sent = h'.server.sent

/-- The server under events that the parser can cause and that meet `ok`, with a log of each. -/
def parsedTurns (ok : Server → Event → Prop) : Lts Server Turn :=
  loggedSystem.restrict fun σ u => u.event.Parsed ∧ ok σ u.event

/-- The turns of the server are those of a step of the host, and all that is sent is sent in
them. -/
structure Explains (r : Account) (us : List Turn) : Prop where
  events : us.map Turn.event = r.events
  sent : us.flatMap Turn.sent = r.sent

/-- The event is part of a read of the client `i`. -/
def Event.OfRead (i : ℕ) : Event → Prop
  | .message _ j _ | .badMessage j _ | .corrupt _ j => j = i
  | .connect | .hangup _ _ | .tick _ _ | .rehash _ _ => False

section

variable {crc32 : List UInt8 → UInt32} {ok : Server → Event → Prop} {σ σ₁ σ' : Server}
  {log : List Sent} {e : Event} {es : List Event} {us : List Turn} {i j : ℕ}
  {f : Standing → Standing} {clock : ℕ → ℕ} {socket rest : List UInt8} {h h' : Host}
  {t : HostEvent}

/-! ### The phases of a read -/

theorem sendReplies_eq (replies : List JzMsg) (σ : Server) :
    sendReplies i replies σ = σ.handleAll (replies.map (.badMessage i)) := by
  induction replies generalizing σ with
  | nil => rfl
  | cons m replies ih => exact bind_congr fun σ => ih σ

theorem processMessages_eq (clock : ℕ → ℕ) (msgs : List JzMsg) (σ : Server) :
    jzClientProcessMessages i (msgs.mapIdx fun k msg => (clock k, msg)) σ =
      σ.handleAll (msgs.mapIdx fun k msg => .message (clock k) i msg) := by
  induction msgs generalizing clock σ with
  | nil => rfl
  | cons m msgs ih =>
    rw [List.mapIdx_cons, List.mapIdx_cons]
    exact bind_congr fun σ => ih (fun k => clock (k + 1)) σ

theorem handleAll_append (es es' : List Event) (σ : Server) :
    σ.handleAll (es ++ es') = σ.handleAll es >>= Server.handleAll es' := by
  unfold Server.handleAll
  rw [List.foldlM_append]

theorem handleAll_singleton (e : Event) (σ : Server) : σ.handleAll [e] = σ.handle e :=
  bind_pure (σ.handle e)

/-- What stays on the queue after a read. -/
def JzClientInput.processed (I : JzClientInput) : JzClientInput :=
  if I.fatal then I else { I with incoming := [] }

/-- **A read, by its events.** -/
theorem inputAvailable_eq {I : JzClientInput}
    (hcallback : jzClientInputAvailableCallback crc32 socket (h.input i).kept = .ok (rest, I)) :
    h.inputAvailable crc32 clock i socket = (do
      jzClientDiagnosticString (← h.server.client i)
      let σ ← h.server.handleAll (h.events crc32 (.read clock i socket))
      return (rest, h.set σ i I.processed)) := by
  have hevents : h.events crc32 (.read clock i socket) = I.replies.map (.badMessage i) ++
      if I.fatal then [.corrupt (clock 0) i]
      else I.incoming.mapIdx fun k msg => .message (clock k) i msg := by
    simp only [Host.events, hcallback]
  rw [hevents, handleAll_append, bind_assoc]
  unfold Host.inputAvailable
  refine bind_congr fun C => bind_congr fun _ => ?_
  rw [hcallback]
  change sendReplies i I.replies h.server >>= _ = _
  rw [sendReplies_eq]
  refine bind_congr fun σ => ?_
  unfold JzClientInput.processed
  cases I.fatal with
  | true =>
    change _ = σ.handleAll [.corrupt (clock 0) i] >>= _
    rw [handleAll_singleton]
    rfl
  | false =>
    change jzClientProcessMessages i _ σ >>= _ = _
    rw [processMessages_eq]
    rfl

/-- A read as a step of the host, which begins with an empty log. -/
theorem inputAvailable_cleared {I : JzClientInput}
    (hcallback : jzClientInputAvailableCallback crc32 socket (h.input i).kept = .ok (rest, I)) :
    ({ h with server := { h.server with sent := [] } } : Host).inputAvailable crc32 clock i
      socket = (do
        jzClientDiagnosticString (← ({ h.server with sent := [] } : Server).client i)
        let σ ← ({ h.server with sent := [] } : Server).handleAll
          (h.events crc32 (.read clock i socket))
        return (rest, h.set σ i I.processed)) :=
  inputAvailable_eq hcallback

/-! ### A step of the server -/

theorem addsToLog_handle (hread : e.OfRead i) : AddsToLog fun σ => σ.handle e := by
  cases e with
  | connect | hangup | tick | rehash => exact hread.elim
  | message now j msg => exact addsToLog_clientProcessMessage
  | badMessage j diagnostic => exact addsToLog_sendMsg
  | corrupt now j => exact addsToLog_punishmentRestart

/-- An event of a read does with something in the log what it does without. -/
theorem follows_handle (hread : e.OfRead i) : Follows (Server.after log)
    (({ σ with sent := log } : Server).handle e) (({ σ with sent := [] } : Server).handle e) := by
  have hafter : ({ σ with sent := log } : Server) =
      ({ σ with sent := [] } : Server).after log := by
    unfold Server.after
    rw [List.append_nil]
  rw [hafter]
  exact addsToLog_handle hread log _

theorem enabled_of_ofRead (hread : e.OfRead i) (hsource : σ.HasSource i) : e.Enabled σ := by
  cases e with
  | connect | hangup | tick | rehash => exact hread.elim
  | message | badMessage | corrupt =>
    obtain rfl : _ = i := hread
    exact hsource

theorem hasSource_iff :
    σ.HasSource i ↔ ∃ s, σ.standing i = some s ∧ s.hasSource = true := by
  constructor
  · rintro ⟨C, hC, hsource⟩
    exact ⟨C.standing, congrArg (Option.map JzClient.standing) hC, hsource⟩
  · rintro ⟨s, hs, hsource⟩
    obtain ⟨C, hC, rfl⟩ := Option.map_eq_some_iff.1 hs
    exact ⟨C, hC, hsource⟩

theorem Restands.hasSource (h : Restands j f σ σ') (hf : ∀ s, (f s).hasSource = s.hasSource)
    (hsource : σ.HasSource i) : σ'.HasSource i := by
  obtain ⟨s, hs, hsource⟩ := hasSource_iff.1 hsource
  rw [hasSource_iff, h i]
  split_ifs
  · exact ⟨f s, by rw [hs, Option.map_some], (hf s).trans hsource⟩
  · exact ⟨s, hs, hsource⟩

/-- The socket of the client is still read. -/
theorem hasSource_of_step (hread : e.OfRead i) (hreach : serverSystem.Reachable σ)
    (hsource : σ.HasSource i) (hstep : serverSystem.Step σ e σ') : σ'.HasSource i := by
  have hsource₀ : ({ σ with sent := [] } : Server).HasSource i := hsource
  cases handle_standing (registered_of_reachable hreach).cleared
    (enabled_of_ofRead hread hsource₀) hstep.2 with
  | joined | hungUp => exact hread.elim
  | accepted _ h => exact h.hasSource (fun _ => rfl) hsource₀
  | corrupt h => exact h.hasSource (fun _ => rfl) hsource₀
  | restarted _ _ _ h =>
    obtain h | h := h
    · exact h.hasSource (fun _ => rfl) hsource₀
    · exact h.hasSource (fun _ => rfl) hsource₀
  | same _ h =>
    obtain ⟨s, hs, hsource⟩ := hasSource_iff.1 hsource₀
    exact hasSource_iff.2 ⟨s, (h i).trans hs, hsource⟩

/-- **An event of a read**, handled with something in the log, is a step of the server. -/
theorem exists_turn (hread : e.OfRead i) (hsource : σ.HasSource i)
    (h : ({ σ with sent := log } : Server).handle e = .ok σ') :
    ∃ u σ₁, loggedSystem.Step σ u σ₁ ∧ u.event = e ∧ σ' = { σ₁ with sent := log ++ u.sent } := by
  obtain ⟨σ₁, hok, rfl⟩ := (follows_handle hread).eq_ok h
  obtain ⟨u, rfl, hturn⟩ := exists_logged_step ⟨enabled_of_ofRead hread hsource, hok⟩
  refine ⟨u, σ₁, hturn, rfl, ?_⟩
  rw [hturn.2.2]
  rfl

/-- **All events of a read** are a run of the server. -/
theorem exists_turns (hlog : LogFree ok) (hes : ∀ e ∈ es, e.OfRead i ∧ e.Parsed)
    (hreach : serverSystem.Reachable σ) (hsource : σ.HasSource i)
    (hmeet : AllMeet ok es { σ with sent := log })
    (h : ({ σ with sent := log } : Server).handleAll es = .ok σ') :
    ∃ us σ₁, (parsedTurns ok).Run σ us σ₁ ∧ us.map Turn.event = es ∧
      σ' = { σ₁ with sent := log ++ us.flatMap Turn.sent } := by
  induction es generalizing σ log with
  | nil =>
    cases h
    refine ⟨[], σ, .nil σ, rfl, ?_⟩
    rw [List.flatMap_nil, List.append_nil]
  | cons e es ih =>
    rw [List.forall_mem_cons] at hes
    obtain ⟨⟨hread, hparsed⟩, hes⟩ := hes
    obtain ⟨hok, hmeet⟩ := hmeet
    obtain ⟨σ₂, hhandle, h⟩ := bind_eq_ok h
    obtain ⟨u, σ₁, hturn, rfl, rfl⟩ := exists_turn hread hsource hhandle
    obtain ⟨us, σ₃, hrun, rfl, rfl⟩ := ih hes (hreach.step hturn.1)
      (hasSource_of_step hread hreach hsource hturn.1) (hmeet _ hhandle) h
    refine ⟨u :: us, σ₃, .cons ⟨⟨hparsed, (hlog _ _ _).1 hok⟩, hturn⟩ hrun, rfl, ?_⟩
    rw [List.flatMap_cons, List.append_assoc]

theorem reachable_of_turns (hreach : (serverSystem.restrict ok).Reachable σ)
    (hturns : (parsedTurns ok).Run σ us σ') : (serverSystem.restrict ok).Reachable σ' := by
  refine hturns.preserves (serverSystem.restrict ok).Reachable hreach
    fun _ _ _ hreach hturn => ?_
  exact hreach.step ⟨hturn.1.2, hturn.2.1⟩

/-! ### A step of the host -/

/-- The host is where the server is, but for the log, and its queues come out of the parser. -/
structure Host.Refines (ok : Server → Event → Prop) (h : Host) (σ : Server) : Prop where
  reachable : (serverSystem.restrict ok).Reachable σ
  server : h.server = { σ with sent := h.server.sent }
  queues : ∀ i, ∀ m ∈ (h.input i).incoming, ParserDelivers m

theorem parserYields_parsed : ParserYields crc32 ParserDelivers ParserReports where
  valid hparse hmsg herror _ := ⟨crc32, _, _, hparse, hmsg, herror⟩
  bad hparse hmsg herror := ⟨crc32, _, _, hparse, hmsg, herror⟩

namespace Host.Refines

theorem start : ({} : Host).Refines ok {} :=
  ⟨.init rfl, rfl, fun _ => List.forall_mem_nil _⟩

theorem cleared (hh : h.Refines ok σ) :
    ({ h.server with sent := [] } : Server) = { σ with sent := [] } := by
  rw [hh.server]

theorem meets (hh : h.Refines ok σ) (ok' : Server → Event → Prop) :
    h.Meets crc32 ok' t ↔ AllMeet ok' (h.events crc32 t) { σ with sent := [] } := by
  rw [← hh.cleared]
  exact ⟨Host.Meets.events, .mk⟩

theorem hasSource (hh : h.Refines ok σ) : h.server.HasSource i ↔ σ.HasSource i := by
  rw [hh.server]
  exact Iff.rfl

/-- The input of one client is replaced. -/
theorem set {I : JzClientInput} (hh : h.Refines ok σ)
    (hreach : (serverSystem.restrict ok).Reachable σ₁)
    (hsame : σ' = { σ₁ with sent := σ'.sent }) (hI : ∀ m ∈ I.incoming, ParserDelivers m) :
    (h.set σ' i I).Refines ok σ₁ := by
  refine ⟨hreach, hsame, fun j => ?_⟩
  by_cases hj : j = i
  · subst hj
    rw [Host.set_input]
    exact hI
  · have hother : (h.set σ' i I).input j = h.input j := Function.update_of_ne hj _ _
    rw [hother]
    exact hh.queues j

/-- What comes out of the receive buffer in a read. -/
theorem callback {I : JzClientInput} (hh : h.Refines ok σ)
    (hcallback : jzClientInputAvailableCallback crc32 socket (h.input i).kept = .ok (rest, I)) :
    I.Holds ParserDelivers ParserReports := by
  have hkept : (h.input i).kept.Holds ParserDelivers ParserReports :=
    ⟨hh.queues i, List.forall_mem_nil _⟩
  exact callback_holds parserYields_parsed hkept hcallback

/-- The events of a read are those of its client, and the parser causes them. -/
theorem events (hh : h.Refines ok σ) :
    ∀ e ∈ h.events crc32 (.read clock i socket), e.OfRead i ∧ e.Parsed := by
  intro e he
  unfold Host.events at he
  dsimp only at he
  split at he
  · rename_i rest I hcallback
    have hI := hh.callback hcallback
    obtain he | he := List.mem_append.1 he
    · obtain ⟨m, hm, rfl⟩ := List.mem_map.1 he
      exact ⟨rfl, hI.replies m hm⟩
    · split at he
      · obtain rfl := List.mem_singleton.1 he
        exact ⟨rfl, trivial⟩
      · rw [List.mem_mapIdx] at he
        obtain ⟨k, hk, rfl⟩ := he
        exact ⟨rfl, hI.incoming _ (List.getElem_mem hk)⟩
  · cases he

/-- What happens beside the reads is an event as it stands. -/
theorem other (hlog : LogFree ok) (hh : h.Refines ok σ) (hno : e.NoRead)
    (hmeets : h.Meets crc32 ok (.other e)) (hstep : serverSystem.Step h.server e σ') :
    ∃ u, (parsedTurns ok).Step σ u σ' ∧ u.event = e ∧ u.sent = σ'.sent := by
  have henabled : e.Enabled σ := by
    have henabled := hstep.1
    rw [hh.server] at henabled
    cases e with
    | connect | message | badMessage | corrupt | hangup | tick | rehash => exact henabled
  have hok : ok { h.server with sent := [] } e := hmeets.events.1
  have hhandle := hstep.2
  rw [hh.cleared] at hok hhandle
  obtain ⟨u, rfl, hturn⟩ := exists_logged_step ⟨henabled, hhandle⟩
  have hparsed : u.event.Parsed := by
    cases hevent : u.event with
    | connect | hangup | tick | rehash => exact trivial
    | message | badMessage | corrupt =>
      rw [hevent] at hno
      exact hno.elim
  exact ⟨u, ⟨⟨hparsed, (hlog _ _ _).1 hok⟩, hturn⟩, rfl, hturn.2.2⟩

/-- **A read.** -/
theorem inputAvailable (hlog : LogFree ok) (hh : h.Refines ok σ) (hsource : σ.HasSource i)
    (hmeets : h.Meets crc32 ok (.read clock i socket))
    (hrun : ({ h with server := { h.server with sent := [] } } : Host).inputAvailable crc32
      clock i socket = .ok (rest, h')) :
    ∃ us σ₁, (parsedTurns ok).Run σ us σ₁ ∧
      us.map Turn.event = h.events crc32 (.read clock i socket) ∧
      us.flatMap Turn.sent = h'.server.sent ∧ h'.Refines ok σ₁ := by
  obtain ⟨I, -, -, hcallback, -, -⟩ := inputAvailable_eq_ok hrun
  rw [inputAvailable_cleared hcallback] at hrun
  obtain ⟨C, -, hrun⟩ := bind_eq_ok hrun
  obtain ⟨_, -, hrun⟩ := bind_eq_ok hrun
  obtain ⟨σ', hall, hrun⟩ := bind_eq_ok hrun
  cases hrun
  rw [hh.cleared] at hall
  obtain ⟨us, σ₁, hturns, hevents, rfl⟩ :=
    exists_turns hlog hh.events hh.reachable.of_restrict hsource ((hh.meets ok).1 hmeets) hall
  refine ⟨us, σ₁, hturns, hevents, rfl, ?_⟩
  have hreach := reachable_of_turns hh.reachable hturns
  refine ⟨hreach, rfl, (hh.set hreach rfl ?_).queues⟩
  unfold JzClientInput.processed
  split
  · exact (hh.callback hcallback).incoming
  · exact List.forall_mem_nil _

/-- **A step of the host** is a run of the server. -/
theorem step (hlog : LogFree ok) (hh : h.Refines ok σ) (hmeets : h.Meets crc32 ok t)
    (hstep : (hostSystem crc32).Step h t h') :
    ∃ us σ₁, (parsedTurns ok).Run σ us σ₁ ∧ us.map Turn.event = h.events crc32 t ∧
      us.flatMap Turn.sent = h'.server.sent ∧ h'.Refines ok σ₁ := by
  cases t with
  | read clock i socket =>
    obtain ⟨hsource, rest, hrun⟩ := hstep
    exact hh.inputAvailable hlog (hh.hasSource.1 hsource) hmeets hrun
  | other e =>
    obtain ⟨hno, σ', hserver, rfl⟩ := hstep
    obtain ⟨u, hturn, rfl, hu⟩ := hh.other hlog hno hmeets hserver
    refine ⟨[u], σ', .single hturn, rfl, ?_, ?_⟩
    · rw [List.flatMap_singleton, hu]
    · exact ⟨reachable_of_turns hh.reachable (.single hturn), rfl, hh.queues⟩

end Host.Refines

/-! ### Runs of the host -/

theorem refines_of_reachable (hlog : LogFree ok)
    (hreach : ((hostSystem crc32).restrict fun h t => h.Meets crc32 ok t).Reachable h) :
    ∃ σ, h.Refines ok σ := by
  refine hreach.invariant (fun h => ∃ σ, h.Refines ok σ) ?_ ?_
  · rintro h rfl
    exact ⟨{}, .start⟩
  · rintro h t h' - ⟨σ, hh⟩ ⟨hmeets, hstep⟩
    obtain ⟨-, σ₁, -, -, -, hh'⟩ := hh.step hlog hmeets hstep
    exact ⟨σ₁, hh'⟩

theorem account_step (hmeets : h.Meets crc32 ok t) (hstep : (hostSystem crc32).Step h t h') :
    ((accountSystem crc32).restrict fun h r => h.Meets crc32 ok r.step).Step h
      ⟨t, h.events crc32 t, h'.server.sent⟩ h' :=
  ⟨hmeets, hstep, rfl, rfl⟩

theorem events_connectRead :
    oneClient.events digitalCrc32 connectRead = [.message 0 0 connectA] := by
  simp only [Host.events, connectRead, callback_connect]
  rfl

theorem step_connect : (hostSystem crc32).Step {} (.other .connect) oneClient :=
  ⟨trivial, _, ⟨trivial, rfl⟩, rfl⟩

theorem meets_connect (hok : ok {} .connect) : ({} : Host).Meets crc32 ok (.other .connect) :=
  ⟨hok, fun _ _ => trivial⟩

theorem meets_connectRead
    (hok : ok { oneClient.server with sent := [] } (.message 0 0 connectA)) :
    oneClient.Meets digitalCrc32 ok connectRead := by
  constructor
  rw [events_connectRead]
  exact ⟨hok, fun _ _ => trivial⟩

end

end Application10
end Jozabad
