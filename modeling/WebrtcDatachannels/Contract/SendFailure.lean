import WebrtcDatachannels.Guest.Conn
import WebrtcDatachannels.Host.Send
import WebrtcDatachannels.Jco.Send

/-!
# Failed sends in the three implementations

Each implementation hands a message to a WebRTC stack whose own channel may close at any time, and
maps a failure of that to an error. The Wasmtime host asks the stack for the channel's state
afterwards, so it is right in every interleaving. The in-guest provider answers `other` whatever the
core's channel is by then, and the browser-first host `closed` (`send_failures_classified_iff`).
-/

namespace WebrtcDatachannels.Contract

open Guest (RTCDataChannelId TaskId)
open Host (Sending SendCall SendingAct Stage)

/-- `RTCDataChannelState`, of the `rtc` and the `webrtc` crate. -/
inductive RTCDataChannelState where
  | unspecified
  | connecting
  | open
  | closing
  | closed
deriving DecidableEq, Repr

/-- A call returned an error, which is `closed` exactly when the channel is not open. -/
def Reports (result : Option (Except Error Unit)) (isOpen : Prop) : Prop :=
  ∃ e, result = some (.error e) ∧ (e = .closed ↔ ¬ isOpen)

theorem reports_error {e : Error} {isOpen : Prop} :
    Reports (some (.error e)) isOpen ↔ (e = .closed ↔ ¬ isOpen) := by
  constructor
  · rintro ⟨e', he, hiff⟩
    cases he
    exact hiff
  · exact fun hiff => ⟨e, rfl, hiff⟩

/-- An answer of `other` is right on an open channel only. -/
theorem reports_other {reason : String} {isOpen : Prop} :
    Reports (some (.error (.other reason))) isOpen ↔ isOpen := by
  simp [reports_error]

/-- An answer of `closed` is right on every other channel. -/
theorem reports_closed {isOpen : Prop} : Reports (some (.error .closed)) isOpen ↔ ¬ isOpen := by
  simp [reports_error]

/-! ## The Wasmtime host -/

/-- The result of a host's `send`. -/
def hostResult (c : SendCall) : Option (Except Error Unit) :=
  match c.stage with
  | .done r => some r
  | _ => none

/-- The transport has refused the call's message, and the call asks for the channel's state. -/
def Refused (c : SendCall) : Prop := ∃ reason, c.stage = .checking reason

/-- The calls of a host's channel, and the stack's channel, which it may no longer know. -/
structure HostSide where
  sending : Sending
  channel : Option RTCDataChannelState

/-- The stack's channel changes, or the calls take a step. -/
inductive HostAct where
  | channel (state : Option RTCDataChannelState)
  | call (a : SendingAct)

namespace HostSide

/-- What `ready_state` tells: `matches!(channel.ready_state().await, Ok(Open))`. -/
def isOpen (s : HostSide) : Bool := s.channel = some .open

/-- One step. The transport may fail a send in any state of the channel, and `ready_state` tells the
state that the channel is in. -/
def step (s : HostSide) : HostAct → Option HostSide
  | .channel state => some { s with channel := state }
  | .call (.answer k result) =>
    (s.sending.feed k (·.answered result)).map fun q => { s with sending := q }
  | .call (.state k isOpen) =>
    if isOpen = s.isOpen then
      (s.sending.feed k (·.stated isOpen)).map fun q => { s with sending := q }
    else none
  | .call a => (s.sending.step a).map fun q => { s with sending := q }

/-- A call whose message the transport refuses asks for the channel's state; it asks until it
returns what that state asks for; and when it is told the state that the channel is in, it does
return. -/
structure Classified (s : HostSide) (a : HostAct) : Prop where
  asks : ∀ k c reason, a = .call (.answer k (.error reason)) → s.sending.calls[k]? = some c →
    c.stage = .handing →
    ∃ s' c', s.step a = some s' ∧ s'.sending.calls[k]? = some c' ∧ Refused c'
  keeps : ∀ s', s.step a = some s' → ∀ (k : Nat) c, s.sending.calls[k]? = some c → Refused c →
    ∃ c', s'.sending.calls[k]? = some c' ∧
      (Refused c' ∨ Reports (hostResult c') (s'.channel = some .open))
  ends : ∀ (k : Nat) c, s.sending.calls[k]? = some c → Refused c →
    ∃ s' c', s.step (.call (.state k s.isOpen)) = some s' ∧ s'.sending.calls[k]? = some c' ∧
      Reports (hostResult c') (s'.channel = some .open)

section
variable {s s' : HostSide} {q q' : Sending} {c c' : SendCall} {k : Nat}

theorem step_call {a : SendingAct} (ha : ∀ k r, a ≠ .answer k r) (ha' : ∀ k b, a ≠ .state k b) :
    s.step (.call a) = (s.sending.step a).map fun q => { s with sending := q } := by
  cases a with
  | answer k r => exact absurd rfl (ha k r)
  | state k b => exact absurd rfl (ha' k b)
  | wire | fire | send | sendViaStream | poll | element | payload | exhaust => rfl

/-- The answer to a call moves that call. -/
theorem feed_cases {f : SendCall → Option SendCall} {j : Nat} (h : q.feed j f = some q')
    (hk : q.calls[k]? = some c) :
    (j = k ∧ ∃ c', f c = some c' ∧ q'.calls[k]? = some c') ∨
      (j ≠ k ∧ q'.calls[k]? = some c) := by
  obtain ⟨d', hd', rfl⟩ := Option.map_eq_some_iff.1 h
  obtain ⟨d, hj, hd⟩ := Option.bind_eq_some_iff.1 hd'
  by_cases hjk : j = k
  · subst hjk
    rw [hk] at hj
    cases hj
    obtain ⟨hlt, -⟩ := List.getElem?_eq_some_iff.1 hk
    exact .inl ⟨rfl, d', hd, List.getElem?_set_self hlt⟩
  · exact .inr ⟨hjk, by rw [← hk]; exact List.getElem?_set_ne hjk⟩

/-- A call moved by its stream keeps asking; nothing but the channel's state moves it otherwise. -/
theorem Moves.refused {a : SendingAct} {o : Option Message} (hm : q.Moves k c a c' o)
    (hc : Refused c) (ha : ∀ isOpen, a ≠ .state k isOpen) : Refused c' := by
  obtain ⟨reason, hst⟩ := hc
  cases hm with
  | poll h => simp [SendCall.poll, hst] at h
  | answer _ h => simp [SendCall.answered, hst] at h
  | state h => exact absurd rfl (ha _)
  | stream | exhaust => exact ⟨reason, hst⟩

/-- A step of the calls that does not tell a channel's state leaves a refused call asking. -/
theorem refused_step {a : SendingAct} (h : q.step a = some q')
    (ha : ∀ k isOpen, a ≠ .state k isOpen) (hk : q.calls[k]? = some c) (hc : Refused c) :
    ∃ c', q'.calls[k]? = some c' ∧ Refused c' := by
  cases Sending.step_effect h with
  | wired => exact ⟨c, hk, hc⟩
  | fired =>
    show ∃ c', (if q.closed then q.calls else q.calls.map SendCall.mark)[k]? = some c' ∧ _
    split
    · exact ⟨c, hk, hc⟩
    · refine ⟨c.mark, by rw [List.getElem?_map, hk]; rfl, ?_⟩
      obtain ⟨reason, hst⟩ := hc
      unfold SendCall.mark
      split <;> exact ⟨reason, hst⟩
  | made m =>
    obtain ⟨hlt, -⟩ := List.getElem?_eq_some_iff.1 hk
    exact ⟨c, by rw [← hk]; exact List.getElem?_append_left hlt, hc⟩
  | @moved _ j d d' o hj hm =>
    by_cases h : j = k
    · subst h
      rw [hk] at hj
      cases hj
      obtain ⟨hlt, -⟩ := List.getElem?_eq_some_iff.1 hk
      exact ⟨d', List.getElem?_set_self hlt, Moves.refused hm hc (ha _)⟩
    · exact ⟨c, by rw [← hk]; exact List.getElem?_set_ne h, hc⟩

/-- A call that the state of the channel is told to returns what that asks for. -/
theorem reports_stated (hc : Refused c) (h : c.stated s.isOpen = some c') :
    Reports (hostResult c') (s.channel = some .open) := by
  obtain ⟨reason, hst⟩ := hc
  simp only [SendCall.stated, hst] at h
  cases h
  refine ⟨Host.sendError reason s.isOpen, rfl, ?_⟩
  rw [HostSide.isOpen]
  by_cases ho : s.channel = some .open <;> simp [Host.sendError, ho]

/-- A refused call asks until it returns. -/
theorem keeps {a : HostAct} (h : s.step a = some s') (hk : s.sending.calls[k]? = some c)
    (hc : Refused c) :
    ∃ c', s'.sending.calls[k]? = some c' ∧
      (Refused c' ∨ Reports (hostResult c') (s'.channel = some .open)) := by
  cases a with
  | channel state => cases h; exact ⟨c, hk, .inl hc⟩
  | call a =>
    cases a with
    | answer j result =>
      obtain ⟨q, hq, rfl⟩ := Option.map_eq_some_iff.1 h
      obtain ⟨rfl, c', hc', -⟩ | ⟨-, hk'⟩ := feed_cases hq hk
      · obtain ⟨reason, hst⟩ := hc
        simp [SendCall.answered, hst] at hc'
      · exact ⟨c, hk', .inl hc⟩
    | state j isOpen =>
      simp only [step] at h
      split at h
      · next hopen =>
        obtain ⟨q, hq, rfl⟩ := Option.map_eq_some_iff.1 h
        obtain ⟨rfl, c', hc', hk'⟩ | ⟨-, hk'⟩ := feed_cases hq hk
        · rw [hopen] at hc'
          exact ⟨c', hk', .inr (reports_stated hc hc')⟩
        · exact ⟨c, hk', .inl hc⟩
      · cases h
    | wire | fire | send | sendViaStream | poll | element | payload | exhaust =>
      rw [step_call (fun _ _ he => by cases he) (fun _ _ he => by cases he)] at h
      obtain ⟨q, hq, rfl⟩ := Option.map_eq_some_iff.1 h
      obtain ⟨c', hc', href⟩ := refused_step hq (fun _ _ he => by cases he) hk hc
      exact ⟨c', hc', .inl href⟩

/-- The host classifies in every state. -/
theorem classified (s : HostSide) (a : HostAct) : s.Classified a where
  asks k c reason ha hk hst := by
    obtain ⟨hlt, -⟩ := List.getElem?_eq_some_iff.1 hk
    refine ⟨{ s with sending := { s.sending with
      calls := s.sending.calls.set k { c with stage := .checking reason } } }, _, ?_,
      List.getElem?_set_self hlt, reason, rfl⟩
    simp [ha, step, Sending.feed, hk, SendCall.answered, hst]
  keeps _ h _ _ hk hc := keeps h hk hc
  ends k c hk hc := by
    obtain ⟨hlt, -⟩ := List.getElem?_eq_some_iff.1 hk
    have hstated : ∃ c', c.stated s.isOpen = some c' := by
      obtain ⟨reason, hst⟩ := hc
      exact ⟨_, by rw [SendCall.stated, hst]⟩
    obtain ⟨c', hc'⟩ := hstated
    refine ⟨{ s with sending := { s.sending with calls := s.sending.calls.set k c' } }, c', ?_,
      List.getElem?_set_self hlt, reports_stated hc hc'⟩
    simp [step, Sending.feed, hk, hc']

end

end HostSide

/-! ## The in-guest provider -/

/-- The error a `send` or `send_via_stream` returned. -/
def guestResult : Guest.Task → Option (Except Error Unit)
  | .send _ _ (.returned r) => some r
  | .sendViaStream _ _ (.returned (.ok ())) => some (.ok ())
  | .sendViaStream _ _ (.returned (.error e)) => some (.error e.error)
  | _ => none

/-- A connection of the provider, and the core's own channels. -/
structure GuestSide where
  conn : Guest.Conn
  core : RTCDataChannelId → Option RTCDataChannelState

/-- A channel of the core changes, or the connection takes a step. -/
inductive GuestAct where
  | core (id : RTCDataChannelId) (state : Option RTCDataChannelState)
  | act (a : Guest.Act)

namespace GuestSide

/-- One step. The core tells of a change of its channel in an event of its own, drained later. -/
def step (limit : Nat) (s : GuestSide) : GuestAct → Option GuestSide
  | .core id state => some { s with core := Function.update s.core id state }
  | .act a => (s.conn.step limit a).map fun c => { s with conn := c }

/-- The task hands its message to the core's channel `id` when it is polled. -/
def Hands (s : GuestSide) (k : TaskId) (id : RTCDataChannelId) : Prop :=
  Guest.channelState s.conn.shared id = .open ∧
    ∃ h message seen, h.id = id ∧ s.conn.shared.watch.ready seen = true ∧
      (s.conn.tasks[k]? = some (.send h message (.pending seen)) ∨
        ∃ sent status, s.conn.tasks[k]? =
          some (.sendViaStream h sent (.opening status message seen)))

/-- A task whose message the core refuses returns what the core's channel asks for. -/
def Classified (limit : Nat) (s : GuestSide) (a : GuestAct) : Prop :=
  ∀ k now reason id, a = .act (.poll k now (.error reason)) → s.Hands k id →
    ∃ s' t, s.step limit a = some s' ∧ s'.conn.tasks[k]? = some t ∧
      Reports (guestResult t) (s'.core id = some .open)

/-- The core refuses a message only on a channel that is open in the core too. -/
def RefusesOpen (s : GuestSide) (a : GuestAct) : Prop :=
  ∀ k now reason id, a = .act (.poll k now (.error reason)) → s.Hands k id →
    s.core id = some .open

/-- A task whose message the core refuses returns `other`, whatever the core's channel. -/
theorem step_refused {s : GuestSide} {k : TaskId} {id : RTCDataChannelId} (h : s.Hands k id)
    (limit : Nat) (now : Guest.Instant) (reason : String) :
    ∃ s' t, s.step limit (.act (.poll k now (.error reason))) = some s' ∧
      s'.conn.tasks[k]? = some t ∧ guestResult t = some (.error (.other reason)) ∧
        s'.core = s.core := by
  obtain ⟨hopen, hd, message, seen, rfl, hready, hk⟩ := h
  have hpass : Guest.whenOpen s.conn.shared hd.id (Guest.handOver hd.id message (.error reason)) =
      (.ret (.error (.other reason)),
        { s.conn.shared with
          peer := (s.conn.shared.peer.send hd.id message (.error reason)).2 }) := by
    rw [Guest.whenOpen, hopen]
    rfl
  -- the poll of the task, and the task it leaves
  obtain ⟨t, p, hk, hp, hres⟩ : ∃ t p, s.conn.tasks[k]? = some t ∧
      t.poll s.conn.shared k now (.error reason) = some p ∧
        guestResult p.task = some (.error (.other reason)) := by
    obtain hk | ⟨sent, status, hk⟩ := hk
    · exact ⟨_, _, hk, by rw [Guest.Task.poll, if_pos hready], by rw [hpass]; rfl⟩
    · exact ⟨_, _, hk, by rw [Guest.Task.poll, if_pos hready], by rw [hpass]; rfl⟩
  obtain ⟨hlt, -⟩ := List.getElem?_eq_some_iff.1 hk
  have hstep : s.step limit (.act (.poll k now (.error reason))) =
      some
        { s with
          conn :=
            { s.conn with
              ledger :=
                { s.conn.ledger with
                  shared := p.shared
                  popped := s.conn.ledger.popped ++ p.popped }
              tokens := s.conn.tokens + p.tokens
              tasks := s.conn.tasks.set k p.task } } := by
    simp only [step, Guest.Conn.step, hk, Option.bind_some, hp, Option.map_some]
  exact ⟨_, p.task, hstep, List.getElem?_set_self hlt, hres, rfl⟩

/-- The provider classifies a refused message exactly on a channel that is open in the core. -/
theorem classified_iff (limit : Nat) (s : GuestSide) (a : GuestAct) :
    s.Classified limit a ↔ s.RefusesOpen a := by
  constructor
  · intro h k now reason id ha hk
    obtain ⟨s', t, hs, ht, hrep⟩ := h k now reason id ha hk
    obtain ⟨s'', t', hs', ht', hres, hcore⟩ := step_refused hk limit now reason
    rw [ha, hs'] at hs
    cases hs
    rw [ht'] at ht
    cases ht
    rw [hres, hcore] at hrep
    exact reports_other.1 hrep
  · intro h k now reason id ha hk
    obtain ⟨s', t, hs, ht, hres, hcore⟩ := step_refused hk limit now reason
    refine ⟨s', t, ha ▸ hs, ht, ?_⟩
    rw [hres, hcore]
    exact reports_other.2 (h k now reason id ha hk)

end GuestSide

/-! ## The browser-first host -/

/-- A call whose message the channel refuses is settled with what the channel's state asks for. -/
def JcoClassified (s : Jco.Outbound) (a : Jco.SendAct) : Prop :=
  ∀ k reason, a = .resume k (.error reason) → s.Hands k →
    ∃ s' c, s.step a = some s' ∧ s'.sends[k]? = some c ∧
      Reports c.result (s'.readyState = .open)

/-- The channel refuses a message only when it is not open. -/
def RefusesClosed (s : Jco.Outbound) (a : Jco.SendAct) : Prop :=
  ∀ k reason, a = .resume k (.error reason) → s.Hands k → s.readyState ≠ .open

/-- The browser-first host classifies a refused message exactly on a channel that is not open. -/
theorem jcoClassified_iff (s : Jco.Outbound) (a : Jco.SendAct) :
    JcoClassified s a ↔ RefusesClosed s a := by
  constructor
  · intro h k reason ha hk
    obtain ⟨s', c, hs, hc, hrep⟩ := h k reason ha hk
    obtain ⟨s'', c', hs', hc', hres, hstate⟩ := Jco.Outbound.step_refused hk reason
    rw [ha, hs'] at hs
    cases hs
    rw [hc'] at hc
    cases hc
    rw [hres, hstate] at hrep
    exact reports_closed.1 hrep
  · intro h k reason ha hk
    obtain ⟨s', c, hs, hc, hres, hstate⟩ := Jco.Outbound.step_refused hk reason
    refine ⟨s', c, ha ▸ hs, hc, ?_⟩
    rw [hres, hstate]
    exact reports_closed.2 (h k reason ha hk)

/-! ## The three together -/

/-- In runs of the three from any states, all classify a failed send by the state of the channel
exactly when the core refuses no message on a channel that it has closed, and the `RTCDataChannel`
none while it is open. The Wasmtime host always does. -/
theorem send_failures_classified_iff (limit : Nat) (host : HostSide) (guest : GuestSide)
    (jco : Jco.Outbound) (hs : List HostAct) (gs : List GuestAct) (js : List Jco.SendAct) :
    (Runs.Meets HostSide.step HostSide.Classified host hs ∧
      Runs.Meets (GuestSide.step limit) (GuestSide.Classified limit) guest gs ∧
      Runs.Meets Jco.Outbound.step JcoClassified jco js) ↔
    (Runs.Meets (GuestSide.step limit) GuestSide.RefusesOpen guest gs ∧
      Runs.Meets Jco.Outbound.step RefusesClosed jco js) := by
  have hguest : GuestSide.Classified limit = GuestSide.RefusesOpen := by
    funext s a
    exact propext (s.classified_iff limit a)
  have hjco : JcoClassified = RefusesClosed := by
    funext s a
    exact propext (jcoClassified_iff s a)
  rw [hguest, hjco]
  exact and_iff_right (Runs.meets_of_forall HostSide.classified host hs)

/-- A channel of the provider opens and closes in the core, and a message is sent before the pump
drains the close. -/
def sendBeforeDrain : List GuestAct :=
  [.act (.createDataChannel "chat" (.ok 0)), .core 0 (some .open),
    .act (.core [.onDataChannel (.onOpen 0)] [] []), .act (.turn 0), .core 0 (some .closed),
    .act (.core [.onDataChannel (.onClose 0)] [] []),
    .act (.send ⟨.pump, 0, "chat"⟩ (.string "hi")),
    .act (.poll 0 0 (.error "data channel closed"))]

/-- The provider reports a channel that has closed as `other`; the browser-first host reports a
message that is too large for an open channel as `closed`. -/
theorem failed_sends_misclassified :
    ¬ Runs.Meets (GuestSide.step 8) (GuestSide.Classified 8) ⟨.bound, fun _ => none⟩
        sendBeforeDrain ∧
      ¬ Runs.Meets Jco.Outbound.step JcoClassified (.new .open)
        [.send (.binary (List.replicate 300000 0)), .resume 0 (.ok ()),
          .resume 0 (.error "TypeError")] := by
  constructor
  · intro h
    have hpoll := (((((((h.2 _ rfl).2 _ rfl).2 _ rfl).2 _ rfl).2 _ rfl).2 _ rfl).2 _ rfl).1
    have hopen := (GuestSide.classified_iff 8 _ _).1 hpoll 0 0 "data channel closed" 0 rfl
      ⟨rfl, ⟨.pump, 0, "chat"⟩, .string "hi", none, rfl, rfl, .inl rfl⟩
    exact absurd hopen (by decide)
  · intro h
    have hresume := ((h.2 _ rfl).2 _ rfl).1
    exact (jcoClassified_iff _ _).1 hresume 0 "TypeError" rfl ⟨_, rfl, rfl⟩ rfl

end WebrtcDatachannels.Contract
