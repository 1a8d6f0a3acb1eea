import Mathlib.Data.Fintype.EquivFin
import WebrtcDatachannels.Guest.Closed
import WebrtcDatachannels.Guest.Drain
import WebrtcDatachannels.Host.Connection

/-!
# The fate of a connection in both implementations

The WebRTC stack reports a sequence of connection-state changes. The in-guest provider learns of
them from drains, which fold them until its pump has seen an end (`Both.pump`); the Wasmtime host
learns of each from its state handler. `Both` is the two side by side, without a local close, under
one sequence cut into drains in any way, with channel events and messages in between. They agree on
`wait_connected` and on the channels along a run exactly when no `disconnected` change is drained
before the end and no first `connected` change is reported after it (`fate_agrees_iff`).
-/

namespace WebrtcDatachannels.Contract

open Guest (RTCPeerConnectionState RTCPeerConnectionEvent RTCMessage RTCDataChannelId PeerEvent
  Shared Instant)
open Host (Lifecycle ends)

/-- What the core queues between two drains. -/
structure Report where
  events : List RTCPeerConnectionEvent
  reads : List RTCMessage
  labels : List (RTCDataChannelId × String)

/-- The connection state that an event reports. -/
def stateChange? : RTCPeerConnectionEvent → Option RTCPeerConnectionState
  | .onConnectionStateChangeEvent state => some state
  | _ => none

/-- The state changes of a report, in their order. -/
def Report.states (r : Report) : List RTCPeerConnectionState := r.events.filterMap stateChange?

/-- The core queues a report. -/
def enqueue (s : Shared) (r : Report) : Shared :=
  { s with
    peer :=
      { s.peer with
        events := s.peer.events ++ r.events
        reads := s.peer.reads ++ r.reads
        labels := r.labels ++ s.peer.labels } }

/-- A task's pass has returned. -/
def returned {ρ : Type} : Guest.Verdict ρ → Option ρ
  | .ret r => some r
  | .wait _ => none

/-- One connection under both implementations: the provider's shared state and whether its pump has
returned, what the host's state handler has written, and the changes reported so far. -/
structure Both where
  guest : Shared
  exited : Bool
  host : Lifecycle
  reported : List RTCPeerConnectionState

namespace Both

/-- A new connection. -/
def start : Both :=
  { guest := .bind .answerer, exited := false, host := .new, reported := [] }

/-- The pump's next round on the shared state, and whether it returns. Source: `Runtime::pump`. -/
def pump (limit : Nat) (s : Shared) (now : Instant) : Shared × Bool :=
  if (s.turn limit).done now then ((s.turn limit).finish, true) else (s.turn limit, false)

/-- A report reaches both. A pump that has returned drains nothing. -/
def step (limit : Nat) (b : Both) (r : Report × Instant) : Option Both :=
  let queued := enqueue b.guest r.1
  let round := if b.exited then (queued, true) else pump limit queued r.2
  some
    { guest := round.1
      exited := round.2
      host := r.1.states.foldl Lifecycle.onConnectionState b.host
      reported := b.reported ++ r.1.states }

/-- One of the reported changes is an end of the connection. -/
def Ended (b : Both) : Prop := ∃ st ∈ b.reported, ends st = true

/-- The verdicts are the same: what `wait_connected` returns before its timeout, if anything, and
whether every channel is closed for good; and to both the connection is over only after its end. -/
structure Agreed (b : Both) : Prop where
  waits : ∀ deadline now, now < deadline →
    returned (Guest.waitConnected b.guest deadline now) = Host.waitConnected b.host.state
  channels : (∀ id, Guest.channelState b.guest id = .closed) ↔ b.host.signal.Fired
  guestOver : b.guest.dead = true → b.Ended
  hostOver : b.host.state.failed = true → b.Ended

/-- A report with a `disconnected` change is not before the end, and one with a `connected` change
after the end is not the first. -/
def Settled (b : Both) (r : Report × Instant) : Prop :=
  (.disconnected ∈ r.1.states → ∃ st ∈ b.reported ++ r.1.states, ends st = true) ∧
    (b.Ended → .connected ∈ r.1.states → .connected ∈ b.reported)

end Both

/-! ## A round of the pump -/

/-- No local close has happened: the core was not asked to close, no drain window runs, and only the
core's own end can have set `closed`. -/
structure Unclosed (s : Shared) : Prop where
  closeRequested : s.closeRequested = false
  drainDeadline : s.drainDeadline = none
  shutdown : s.closed = true → s.shutdownComplete = true

section
variable {limit : Nat} {s : Shared}

/-- What an event makes of the flags. -/
theorem applyEvent_flags (e : PeerEvent) :
    ((s.applyEvent limit e).connected = true ↔ s.connected = true ∨ e = .connected) ∧
    ((s.applyEvent limit e).dead = true ↔ s.dead = true ∨ e = .failed ∨ e = .closed) := by
  cases e with
  | connected | failed | closed | channelClosed => simp [Guest.Shared.applyEvent, Shared.dead,
      Guest.Shared.closeChannels, Guest.Shared.modifyChannel]
  | channelOpen id label =>
    simp only [Guest.Shared.applyEvent]
    split <;> simp [Shared.dead]
  | message id text data =>
    simp only [Guest.Shared.applyEvent]
    split
    · split
      · simp
      · split <;> simp [Shared.dead, Guest.Shared.modifyChannel]
    · simp

/-- No event is a local close. -/
theorem Unclosed.applyEvent (h : Unclosed s) (e : PeerEvent) :
    Unclosed (s.applyEvent limit e) := by
  obtain ⟨hr, hd, hs⟩ := h
  cases e with
  | connected | failed | channelClosed => exact ⟨hr, hd, hs⟩
  | closed => exact ⟨hr, hd, fun _ => rfl⟩
  | channelOpen id label =>
    simp only [Guest.Shared.applyEvent]
    split <;> exact ⟨hr, hd, hs⟩
  | message id text data =>
    simp only [Guest.Shared.applyEvent]
    split
    · split
      · exact ⟨hr, hd, hs⟩
      · split <;> exact ⟨hr, hd, hs⟩
    · exact ⟨hr, hd, hs⟩

/-- What a fold of events makes of the flags. -/
theorem applyEvents_flags (es : List PeerEvent) :
    ((s.applyEvents limit es).connected = true ↔ s.connected = true ∨ .connected ∈ es) ∧
    ((s.applyEvents limit es).dead = true ↔ s.dead = true ∨ .failed ∈ es ∨ .closed ∈ es) := by
  induction es generalizing s with
  | nil => simp
  | cons e es ih =>
    obtain ⟨hc, hd⟩ := ih (s := s.applyEvent limit e)
    obtain ⟨hc', hd'⟩ := @applyEvent_flags limit s e
    rw [Guest.Shared.applyEvents_cons]
    constructor
    · rw [hc, hc', List.mem_cons, or_assoc, eq_comm (a := PeerEvent.connected)]
    · rw [hd, hd', List.mem_cons, List.mem_cons, eq_comm (a := PeerEvent.failed),
        eq_comm (a := PeerEvent.closed), or_assoc, or_or_or_comm]

theorem Unclosed.applyEvents (h : Unclosed s) (es : List PeerEvent) :
    Unclosed (s.applyEvents limit es) := by
  induction es generalizing s with
  | nil => exact h
  | cons e es ih => exact ih (h.applyEvent e)

/-- Without a requested close a drain takes the core's two queues as they are. -/
theorem Unclosed.drain (h : Unclosed s) :
    s.drain = { s with peer := { s.peer with events := [], reads := [] } } ∧
      s.drained = s.peer.events.filterMap s.peer.peerEvent? ++
        s.peer.reads.filterMap Guest.SansIoPeer.messageEvent? := by
  simp [Shared.drain, Shared.drained, Shared.performClose, h.closeRequested,
    Guest.SansIoPeer.drainEvents]

/-- The events of the connection's state in a drain are the queue's state changes, a `disconnected`
one being taken for an end. -/
theorem mem_drained (h : Unclosed s) :
    (.connected ∈ s.drained ↔ .connected ∈ s.peer.events.filterMap stateChange?) ∧
    (.failed ∈ s.drained ∨ .closed ∈ s.drained ↔
      ∃ st ∈ s.peer.events.filterMap stateChange?, Guest.drainsEnd st = true) := by
  rw [h.drain.2]
  have hevent : ∀ e, s.peer.peerEvent? e = some .connected ↔ stateChange? e = some .connected := by
    intro e
    rcases e with (_ | _ | _ | _ | _ | _ | _) | (_ | _ | _) | _ <;>
      simp [Guest.SansIoPeer.peerEvent?, stateChange?]
  have hend : ∀ e, s.peer.peerEvent? e = some .failed ∨ s.peer.peerEvent? e = some .closed ↔
      ∃ st, stateChange? e = some st ∧ Guest.drainsEnd st = true := by
    intro e
    rcases e with (_ | _ | _ | _ | _ | _ | _) | (_ | _ | _) | _ <;>
      simp [Guest.SansIoPeer.peerEvent?, stateChange?, Guest.drainsEnd]
  have hread : ∀ {e : PeerEvent} {r : RTCMessage}, Guest.SansIoPeer.messageEvent? r = some e →
      ∃ id text data, e = .message id text data := by
    intro e r hr
    cases r with
    | dataChannelMessage id text data => cases hr; exact ⟨id, text, data, rfl⟩
    | other => cases hr
  have hmem : ∀ e : PeerEvent, (∀ id text data, e ≠ .message id text data) →
      (e ∈ s.peer.events.filterMap s.peer.peerEvent? ++
          s.peer.reads.filterMap Guest.SansIoPeer.messageEvent? ↔
        ∃ x ∈ s.peer.events, s.peer.peerEvent? x = some e) := by
    intro e hne
    rw [List.mem_append, List.mem_filterMap, or_iff_left]
    rintro hm
    obtain ⟨r, -, hr⟩ := List.mem_filterMap.1 hm
    obtain ⟨id, text, data, rfl⟩ := hread hr
    exact hne id text data rfl
  constructor
  · rw [hmem _ fun _ _ _ => PeerEvent.noConfusion, List.mem_filterMap]
    simp only [hevent]
  · rw [hmem _ fun _ _ _ => PeerEvent.noConfusion, hmem _ fun _ _ _ => PeerEvent.noConfusion]
    constructor
    · rintro (⟨x, hx, he⟩ | ⟨x, hx, he⟩)
      · obtain ⟨st, hst, hd⟩ := (hend x).1 (.inl he)
        exact ⟨st, List.mem_filterMap.2 ⟨x, hx, hst⟩, hd⟩
      · obtain ⟨st, hst, hd⟩ := (hend x).1 (.inr he)
        exact ⟨st, List.mem_filterMap.2 ⟨x, hx, hst⟩, hd⟩
    · rintro ⟨st, hst, hd⟩
      obtain ⟨x, hx, hx'⟩ := List.mem_filterMap.1 hst
      exact ((hend x).2 ⟨st, hx', hd⟩).imp (fun he => ⟨x, hx, he⟩) fun he => ⟨x, hx, he⟩

/-- What the pump's block makes of a state that was not closed locally. -/
structure Turned (limit : Nat) (s : Shared) : Prop where
  connected : (s.turn limit).connected = true ↔
    s.connected = true ∨ .connected ∈ s.peer.events.filterMap stateChange?
  dead : (s.turn limit).dead = true ↔
    s.dead = true ∨ ∃ st ∈ s.peer.events.filterMap stateChange?, Guest.drainsEnd st = true
  unclosed : Unclosed (s.turn limit)
  terminal : Guest.Terminal (s.turn limit)
  events : (s.turn limit).peer.events = []

/-- The block folds the drained events; a notification changes none of this. -/
theorem Unclosed.turned (h : Unclosed s) (ht : Guest.Terminal s) : Turned limit s := by
  obtain ⟨hmc, hme⟩ := mem_drained h
  obtain ⟨hch, hconn, hf, hcl, -⟩ := s.drain_frame
  obtain ⟨hc, hd⟩ := @applyEvents_flags limit s.drain s.drained
  rw [hconn, hmc] at hc
  rw [s.drain_dead, hme] at hd
  have hud : Unclosed s.drain := by
    rw [h.drain.1]
    exact ⟨h.closeRequested, h.drainDeadline, h.shutdown⟩
  have hu : Unclosed (s.drain.applyEvents limit s.drained) := hud.applyEvents s.drained
  have hq := (Guest.applyEvents_queues limit s.drain s.drained).1
  have hq' : s.drain.peer.events = [] := by rw [h.drain.1]
  have hterm := (ht.of_eq hch hcl hf).applyEvents limit s.drained
  rcases Guest.turn_eq limit s with he | he
  · constructor <;> rw [he]
    · exact hc
    · exact hd
    · exact hu
    · exact hterm
    · exact hq.trans hq'
  · constructor <;> rw [he]
    · exact hc
    · exact hd
    · exact ⟨hu.closeRequested, hu.drainDeadline, hu.shutdown⟩
    · exact hterm.of_eq rfl rfl rfl
    · exact hq.trans hq'

/-- Without a local close the pump returns when the connection is over. -/
theorem Unclosed.done (h : Unclosed s) (now : Instant) : s.done now = s.dead := by
  rw [Shared.done, Shared.dead, h.drainDeadline]
  cases s.closed <;> cases s.failed <;> simp

/-- What a round of the pump makes of a state that was not closed locally. -/
theorem pump_flags (h : Unclosed s) (ht : Guest.Terminal s) (now : Instant) :
    ((Both.pump limit s now).1.connected = true ↔
      s.connected = true ∨ .connected ∈ s.peer.events.filterMap stateChange?) ∧
    ((Both.pump limit s now).1.dead = true ↔
      s.dead = true ∨ ∃ st ∈ s.peer.events.filterMap stateChange?, Guest.drainsEnd st = true) ∧
    Guest.Terminal (Both.pump limit s now).1 ∧
    (Both.pump limit s now).2 = (Both.pump limit s now).1.dead ∧
    ((Both.pump limit s now).2 = false →
      Unclosed (Both.pump limit s now).1 ∧ (Both.pump limit s now).1.peer.events = []) := by
  have hu : Turned limit s := h.turned ht
  rw [Both.pump, hu.unclosed.done]
  cases hd : (s.turn limit).dead with
  | true =>
    refine ⟨hu.connected, ?_, Guest.terminal_of_map rfl, rfl, nofun⟩
    rw [← hu.dead, hd]
    simp [Shared.finish, Shared.dead]
  | false =>
    have hdead := hu.dead
    exact ⟨hu.connected, hdead, hu.terminal, hd.symm, fun _ => ⟨hu.unclosed, hu.events⟩⟩

end

/-! ## The two side by side -/

namespace Both

variable {limit : Nat} {b b' : Both} {r : Report × Instant}

/-- What holds as long as every report is settled: both have taken in what was reported, and the
pump runs, with nothing queued, until the end. -/
structure Inv (b : Both) : Prop where
  host : b.host = b.reported.foldl Lifecycle.onConnectionState .new
  connected : b.guest.connected = true ↔ .connected ∈ b.reported
  dead : b.guest.dead = true ↔ b.Ended
  terminal : Guest.Terminal b.guest
  exited : b.exited = b.guest.dead
  waiting : b.exited = false → Unclosed b.guest ∧ b.guest.peer.events = []

/-- What the host has made of the changes reported. -/
theorem host_flags (h : b.host = b.reported.foldl Lifecycle.onConnectionState .new) :
    (b.host.state.connected = true ↔ .connected ∈ b.reported) ∧
    (b.host.state.failed = true ↔ b.Ended) ∧ (b.host.signal.Fired ↔ b.Ended) := by
  rw [h, Lifecycle.foldl_onConnectionState]
  refine ⟨by simp [Lifecycle.new, Host.ConnState.new], ?_, ?_⟩
  · simp [Lifecycle.new, Host.ConnState.new, Ended]
  · have hany : b.reported.any ends = true ↔ b.Ended := by simp [Ended]
    rw [← hany]
    cases b.reported.any ends <;> simp [Host.Signal.Fired, Host.Signal.fire, Lifecycle.new]

theorem inv_start : start.Inv := by
  refine ⟨rfl, by simp [start, Shared.bind], by simp [start, Shared.bind, Shared.dead, Ended], ?_,
    rfl, fun _ => ⟨⟨rfl, rfl, nofun⟩, rfl⟩⟩
  intro hd c hc
  cases hc

/-- A channel that is not tracked yet. -/
theorem exists_untracked (s : Shared) : ∃ id, s.channel? id = none := by
  obtain ⟨id, hid⟩ := Infinite.exists_notMem_finset (s.channels.map Guest.Channel.id).toFinset
  refine ⟨id, Keyed.find?_eq_none.2 fun c hc he => hid ?_⟩
  rw [List.mem_toFinset, ← he]
  exact List.mem_map_of_mem hc

/-- Every channel is closed exactly when the connection is over. -/
theorem closed_iff_dead {s : Shared} (ht : Guest.Terminal s) :
    (∀ id, Guest.channelState s id = .closed) ↔ s.dead = true := by
  refine ⟨fun h => ?_, fun hd => ht.channelState hd⟩
  obtain ⟨id, hid⟩ := exists_untracked s
  have hs := h id
  unfold Guest.channelState at hs
  rw [hid] at hs
  by_contra hd
  have hd' : ¬ (s.closed || s.failed) = true := hd
  simp [hd'] at hs

/-- Equal flags give equal verdicts of `wait_connected`. -/
theorem waits_iff (s : Shared) (c : Host.ConnState) :
    (∀ deadline now, now < deadline →
      returned (Guest.waitConnected s deadline now) = Host.waitConnected c) ↔
    s.connected = c.connected ∧ (s.connected = false → s.dead = c.failed) := by
  constructor
  · intro h
    have h := h 1 0 Nat.one_pos
    unfold Guest.waitConnected Host.waitConnected at h
    rw [Shared.dead]
    revert h
    cases s.connected <;> cases s.failed <;> cases s.closed <;> cases c.connected <;>
      cases c.failed <;> simp [returned]
  · rintro ⟨hc, hd⟩ deadline now hlt
    unfold Guest.waitConnected Host.waitConnected
    rw [← hc]
    cases hs : s.connected with
    | true => rfl
    | false =>
      rw [← hd hs, Shared.dead]
      have hlt' : ¬ now ≥ deadline := Nat.not_le.2 hlt
      cases s.failed <;> cases s.closed <;> simp [returned, hlt']

/-- The two agree as long as every report is settled. -/
theorem Inv.agreed (h : b.Inv) : b.Agreed := by
  obtain ⟨hc, hf, hs⟩ := host_flags h.host
  refine ⟨(waits_iff _ _).2 ⟨?_, fun _ => ?_⟩, ?_, h.dead.1, hf.1⟩
  · rw [Bool.eq_iff_iff, h.connected, hc]
  · rw [Bool.eq_iff_iff, h.dead, hf]
  · rw [closed_iff_dead h.terminal, h.dead, hs]

/-- The reported changes after a step. -/
theorem step_reported (h : b.step limit r = some b') :
    b'.reported = b.reported ++ r.1.states ∧
    b'.host = r.1.states.foldl Lifecycle.onConnectionState b.host ∧
    (b.exited = true → b'.guest = enqueue b.guest r.1 ∧ b'.exited = true) ∧
    (b.exited = false → (b'.guest, b'.exited) = pump limit (enqueue b.guest r.1) r.2) := by
  cases h
  cases b.exited <;> simp

/-- What the guest makes of a report that does not come after the end. -/
theorem Inv.live (hi : b.Inv) (h : b.step limit r = some b') (hx : b.exited = false) :
    (b'.guest.connected = true ↔ .connected ∈ b'.reported) ∧
    (b'.guest.dead = true ↔ ∃ st ∈ r.1.states, Guest.drainsEnd st = true) ∧
    Guest.Terminal b'.guest ∧ b'.exited = b'.guest.dead ∧
    (b'.exited = false → Unclosed b'.guest ∧ b'.guest.peer.events = []) := by
  obtain ⟨hrep, -, -, hp⟩ := step_reported h
  obtain ⟨hu, hq⟩ := hi.waiting hx
  have hst : (enqueue b.guest r.1).peer.events.filterMap stateChange? = r.1.states := by
    simp [enqueue, hq, Report.states]
  have hp := hp hx
  obtain ⟨hc, hd, ht, he, hw⟩ := @pump_flags limit (enqueue b.guest r.1)
    ⟨hu.closeRequested, hu.drainDeadline, hu.shutdown⟩ (hi.terminal.of_eq rfl rfl rfl) r.2
  rw [← hp, hst] at hc hd
  rw [← hp] at ht he hw
  have hlive : b.guest.dead = false := by rw [← hi.exited, hx]
  have hlive' : (enqueue b.guest r.1).dead = false := hlive
  refine ⟨?_, ?_, ht, he, hw⟩
  · rw [hc, hrep, List.mem_append]
    exact or_congr_left hi.connected
  · rw [hd, hlive']
    simp

/-- A settled report keeps the agreement. -/
theorem Inv.step (hi : b.Inv) (hs : b.Settled r) (h : b.step limit r = some b') : b'.Inv := by
  obtain ⟨hrep, hhost, hexit, -⟩ := step_reported h
  have hfold : b'.host = b'.reported.foldl Lifecycle.onConnectionState .new := by
    rw [hhost, hrep, List.foldl_append, ← hi.host]
  cases hx : b.exited with
  | true =>
    -- the pump has returned: nothing but the queue changes, and the report adds nothing
    obtain ⟨hg, hx'⟩ := hexit hx
    have hend : b.Ended := hi.dead.1 (by rw [← hi.exited, hx])
    have hd : b'.guest.dead = b.guest.dead := by rw [hg]; rfl
    refine ⟨hfold, ?_, ?_, ?_, ?_, fun hf => ?_⟩
    · rw [hrep, List.mem_append, ← hi.connected, hg]
      refine ⟨.inl, fun hc => hc.elim id fun hc => hi.connected.2 (hs.2 hend hc)⟩
    · rw [hd, hi.dead]
      refine ⟨fun _ => ?_, fun _ => hend⟩
      obtain ⟨st, hst, he⟩ := hend
      exact ⟨st, by rw [hrep]; exact List.mem_append_left _ hst, he⟩
    · rw [hg]; exact hi.terminal.of_eq rfl rfl rfl
    · rw [hx', hd, ← hi.exited, hx]
    · rw [hx'] at hf; cases hf
  | false =>
    obtain ⟨hc, hd, ht, he, hw⟩ := hi.live h hx
    have hno : ¬ b.Ended := fun hend => by
      have hdead := hi.dead.2 hend
      rw [← hi.exited, hx] at hdead
      cases hdead
    refine ⟨hfold, hc, ?_, ht, he, hw⟩
    rw [hd, Ended, hrep]
    constructor
    · rintro ⟨st, hst, hdr⟩
      cases st with
      | disconnected => exact hs.1 hst
      | failed | closed => exact ⟨_, List.mem_append_right _ hst, rfl⟩
      | unspecified | new | connecting | connected => cases hdr
    · rintro ⟨st, hst, he⟩
      rcases List.mem_append.1 hst with hst | hst
      · exact absurd ⟨st, hst, he⟩ hno
      · refine ⟨st, hst, ?_⟩
        cases st with
        | failed | closed => rfl
        | unspecified | new | connecting | connected | disconnected => cases he

/-- After a report that is not settled the two disagree. -/
theorem Inv.disagree (hi : b.Inv) (hs : ¬ b.Settled r) (h : b.step limit r = some b') :
    ¬ b'.Agreed := by
  intro ha
  obtain ⟨hrep, hhost, hexit, -⟩ := step_reported h
  have hexited : b.Ended → b.exited = true := fun hend => by rw [hi.exited, hi.dead.2 hend]
  rw [Settled, not_and_or] at hs
  rcases hs with hs | hs
  · -- the guest takes the `disconnected` change for an end
    obtain ⟨hdis, hno⟩ := Classical.not_imp.1 hs
    rw [← hrep] at hno
    have hx : b.exited = false := by
      refine eq_false_of_ne_true fun hx => hno ?_
      obtain ⟨st, hst, he⟩ := hi.dead.1 (by rw [← hi.exited, hx])
      exact ⟨st, by rw [hrep]; exact List.mem_append_left _ hst, he⟩
    have hdead := (hi.live h hx).2.1.2 ⟨_, hdis, rfl⟩
    exact hno (ha.guestOver hdead)
  · -- only the host is still there to latch the `connected` change
    obtain ⟨hend, hs⟩ := Classical.not_imp.1 hs
    obtain ⟨hconn, hnot⟩ := Classical.not_imp.1 hs
    have hg := (hexit (hexited hend)).1
    have heq := ((waits_iff _ _).1 ha.waits).1
    have hfold : b'.host = b'.reported.foldl Lifecycle.onConnectionState .new := by
      rw [hhost, hrep, List.foldl_append, ← hi.host]
    have hc : b'.host.state.connected = true :=
      (host_flags hfold).1.2 (by rw [hrep]; exact List.mem_append_right _ hconn)
    rw [hc, hg] at heq
    exact hnot (hi.connected.1 heq)

end Both

/-- The two implementations agree along a sequence of reports exactly when every report is
settled. -/
theorem fate_agrees_iff (limit : Nat) (rs : List (Report × Instant)) :
    Runs.Along (Both.step limit) Both.Agreed .start rs ↔
      Runs.Meets (Both.step limit) Both.Settled .start rs := by
  obtain ⟨t, ht⟩ : ∃ t, Runs.run (Both.step limit) Both.start rs = some t :=
    ⟨_, Runs.run_some _ _ rs⟩
  exact Runs.along_iff_meets (fun _ => Both.Inv.agreed)
    (fun _ _ _ hi hs h => hi.step hs h) (fun _ _ _ hi hs h => hi.disagree hs h) Both.inv_start ht

/-- A report of state changes only. -/
def Report.ofStates (sts : List RTCPeerConnectionState) : Report :=
  { events := sts.map .onConnectionStateChangeEvent, reads := [], labels := [] }

/-- A connection that connects and then loses its peer for a moment is over to the guest and not to
the host; one that fails and then connects returns `ok` from the host's `wait_connected` only. -/
theorem fate_differs :
    ¬ Runs.Along (Both.step 8) Both.Agreed .start
      [(.ofStates [.connected], 0), (.ofStates [.disconnected], 0)] ∧
    ¬ Runs.Along (Both.step 8) Both.Agreed .start
      [(.ofStates [.failed], 0), (.ofStates [.connected], 0)] := by
  constructor
  · intro h
    have ha := h _ (List.prefix_refl _) _ rfl
    have hend := ha.guestOver (by decide)
    revert hend
    simp [Both.Ended, Report.states, Report.ofStates, stateChange?, ends, Both.start]
  · intro h
    have ha := h _ (List.prefix_refl _) _ rfl
    have hw := ha.waits 1 0 (by decide)
    revert hw
    decide

end WebrtcDatachannels.Contract
