import WebrtcDatachannels.Guest.Peer
import WebrtcDatachannels.Lib.Keyed

/-!
# The shared connection state and the pump's blocks

`wasip3-impl/src/runtime.rs`. `Shared` is the state behind one peer connection. The pump runs its
synchronous blocks on it between awaits: `Shared.turn` (a requested close, then the drained events
folded by `applyEvent`) and `Shared.finish` (the exit). `Shared.beginClose` is the local close. The
inbound bound `max_inbound_buffer_bytes()` is read once per process, so it is the parameter `limit`
of everything that depends on it.
-/

namespace WebrtcDatachannels.Guest

/-- A point of the monotonic clock, in nanoseconds. -/
abbrev Instant := Nat

/-- A task of the single-threaded executor. -/
abbrev TaskId := Nat

/-- `CLOSE_DRAIN`, one second. -/
def closeDrain : Nat := 1000000000

/-- A received data-channel message. Source: `InboundMessage`. -/
structure InboundMessage where
  text : Bool
  data : Bytes
deriving DecidableEq, Repr

/-- The payload bytes of a message, `data.len()`. -/
def InboundMessage.len (m : InboundMessage) : Nat := m.data.length

/-! ## The change notification -/

/-- The change notification over the shared state: its version, the tasks registered to be woken,
and, for the executor, the tasks woken so far. Source: `StateWatch`. -/
structure StateWatch where
  version : Nat
  wakers : List TaskId
  woken : List TaskId
deriving DecidableEq, Repr

namespace StateWatch

/-- `StateWatch::default`. -/
def new : StateWatch := { version := 0, wakers := [], woken := [] }

/-- Record a state change and wake every waiter. Source: `StateWatch::notify`. -/
def notify (w : StateWatch) : StateWatch :=
  { version := w.version + 1, wakers := [], woken := w.woken ++ w.wakers }

/-- A pending poll of the `Changed` future leaves the task's waker registered once. Source:
`Changed::poll`. -/
def register (w : StateWatch) (task : TaskId) : StateWatch :=
  if task ∈ w.wakers then w else { w with wakers := w.wakers ++ [task] }

@[simp] theorem notify_version (w : StateWatch) : w.notify.version = w.version + 1 := rfl

@[simp] theorem register_version (w : StateWatch) (task : TaskId) :
    (w.register task).version = w.version := by
  unfold register; split <;> rfl

end StateWatch

/-! ## Channels -/

/-- A data channel observed by the peer connection. Source: `Channel`. -/
structure Channel where
  id : RTCDataChannelId
  label : String
  inbox : List InboundMessage
  inboxBytes : Nat
  overflowed : Bool
  streamClaimed : Bool
  closed : Bool
deriving DecidableEq, Repr

namespace Channel

/-- `Channel::new`. -/
def new (id : RTCDataChannelId) (label : String) : Channel :=
  { id, label, inbox := [], inboxBytes := 0, overflowed := false, streamClaimed := false,
    closed := false }

/-- Pop the oldest buffered message, releasing its bytes from the bound. Source: `Channel::pop`. -/
def pop (c : Channel) : Option InboundMessage × Channel :=
  match c.inbox with
  | [] => (none, c)
  | m :: rest => (some m, { c with inbox := rest, inboxBytes := c.inboxBytes - m.len })

/-- `channel.closed = true`. -/
def close (c : Channel) : Channel := { c with closed := true }

/-- The overflow arm of `apply_event`. -/
def overflow (c : Channel) : Channel := { c with overflowed := true, closed := true }

/-- The delivering arm of `apply_event`. -/
def push (c : Channel) (m : InboundMessage) : Channel :=
  { c with inboxBytes := c.inboxBytes + m.len, inbox := c.inbox ++ [m] }

/-- `channel.stream_claimed = true`. -/
def claim (c : Channel) : Channel := { c with streamClaimed := true }

@[simp] theorem close_id (c : Channel) : c.close.id = c.id := rfl
@[simp] theorem overflow_id (c : Channel) : c.overflow.id = c.id := rfl
@[simp] theorem push_id (c : Channel) (m : InboundMessage) : (c.push m).id = c.id := rfl
@[simp] theorem claim_id (c : Channel) : c.claim.id = c.id := rfl

/-- Popping keeps everything but the inbox and its byte count. -/
theorem pop_frame (c : Channel) :
    c.pop.2.id = c.id ∧ c.pop.2.overflowed = c.overflowed ∧
      c.pop.2.streamClaimed = c.streamClaimed ∧ c.pop.2.closed = c.closed := by
  unfold pop
  split <;> exact ⟨rfl, rfl, rfl, rfl⟩

@[simp] theorem pop_id (c : Channel) : c.pop.2.id = c.id := c.pop_frame.1

end Channel

/-! ## The shared state -/

/-- The connection-level state shared between the pump and the exported resources. Source:
`Shared`. -/
structure Shared where
  peer : SansIoPeer
  channels : List Channel
  connected : Bool
  failed : Bool
  closed : Bool
  closeRequested : Bool
  shutdownComplete : Bool
  drainDeadline : Option Instant
  watch : StateWatch
deriving DecidableEq, Repr

namespace Shared

/-- The state of a freshly bound connection. Source: `Runtime::bind`. -/
def bind (peer : SansIoPeer) : Shared :=
  { peer, channels := [], connected := false, failed := false, closed := false,
    closeRequested := false, shutdownComplete := false, drainDeadline := none,
    watch := StateWatch.new }

/-- `s.closed || s.failed`, the sources' `dead`. -/
def dead (s : Shared) : Bool := s.closed || s.failed

/-- Find a channel by id. Source: `Shared::channel_mut`. -/
def channel? (s : Shared) (id : RTCDataChannelId) : Option Channel :=
  Keyed.find? Channel.id id s.channels

/-- Write through the reference that `channel_mut` returns. -/
def modifyChannel (s : Shared) (id : RTCDataChannelId) (f : Channel → Channel) : Shared :=
  { s with channels := Keyed.modify Channel.id id f s.channels }

/-- `for c in &mut s.channels { c.closed = true }`. -/
def closeChannels (s : Shared) : Shared := { s with channels := s.channels.map Channel.close }

/-- `self.watch.notify()`. -/
def notify (s : Shared) : Shared := { s with watch := s.watch.notify }

/-- Mark the connection locally closed and start the pump's bounded drain. Source:
`Shared::begin_close`. -/
def beginClose (s : Shared) (now : Instant) : Shared :=
  if s.closed || s.failed then s
  else
    { s.closeChannels with
      closed := true
      closeRequested := true
      drainDeadline := some (now + closeDrain)
      watch := s.watch.notify }

/-- Fold one drained core event into the shared state. Source: `apply_event`. -/
def applyEvent (limit : Nat) (s : Shared) : PeerEvent → Shared
  | .connected => { s with connected := true }
  | .failed => { s.closeChannels with failed := true }
  | .closed => { s.closeChannels with closed := true, shutdownComplete := true }
  | .channelOpen id label =>
    match s.channel? id with
    | some _ => s
    | none =>
      -- an open drained after the connection ended is tracked already closed
      { s with
        channels := s.channels ++ [{ Channel.new id label with closed := s.closed || s.failed }] }
  | .channelClosed id => s.modifyChannel id Channel.close
  | .message id text data =>
    match s.channel? id with
    | some c =>
      if c.overflowed || c.closed then s
      else if c.inboxBytes + data.length > limit then
        { s.modifyChannel id Channel.overflow with peer := s.peer.closeDataChannel id }
      else s.modifyChannel id (Channel.push · ⟨text, data⟩)
    | none => s

/-- The fold of one drained list. Source: the `for event in events` loop of `Runtime::pump`. -/
def applyEvents (limit : Nat) (s : Shared) (events : List PeerEvent) : Shared :=
  events.foldl (applyEvent limit) s

/-- `if s.close_requested { s.close_requested = false; s.peer.close(); }`. -/
def performClose (s : Shared) : Shared :=
  if s.closeRequested then { s with closeRequested := false, peer := s.peer.close } else s

/-- The pump stops: the connection failed, or it closed and the core reported it or the drain
window lapsed. Source: `done` in `Runtime::pump`. -/
def done (s : Shared) (now : Instant) : Bool :=
  s.failed || (s.closed && (s.shutdownComplete || s.drainDeadline.all (· ≤ now)))

/-- The events of one drain: those of the core after the requested close. -/
def drained (s : Shared) : List PeerEvent := s.performClose.peer.drainEvents.1

/-- The state that the drained events are folded into: the requested close is performed and the
core's queues are empty. -/
def drain (s : Shared) : Shared :=
  { s.performClose with peer := s.performClose.peer.drainEvents.2 }

/-- The pump's block between its two flushes, with the notification that follows it. Source:
`Runtime::pump`. -/
def turn (limit : Nat) (s : Shared) : Shared :=
  if s.drained.isEmpty then s.drain.applyEvents limit s.drained
  else (s.drain.applyEvents limit s.drained).notify

/-- The pump's exit: the connection is left terminally closed. Source: `Runtime::pump`. -/
def finish (s : Shared) : Shared := { s.closeChannels with closed := true }.notify

/-! ## What each piece leaves alone -/

/-- A drain touches the core and the close request only. -/
theorem drain_frame (s : Shared) :
    s.drain.channels = s.channels ∧ s.drain.connected = s.connected ∧
      s.drain.failed = s.failed ∧ s.drain.closed = s.closed ∧ s.drain.watch = s.watch ∧
      s.drain.peer.sends = s.peer.sends := by
  unfold drain performClose
  split <;> exact ⟨rfl, rfl, rfl, rfl, rfl, rfl⟩

@[simp] theorem notify_closed (s : Shared) : s.notify.closed = s.closed := rfl

@[simp] theorem applyEvents_nil (limit : Nat) (s : Shared) : s.applyEvents limit [] = s := rfl

@[simp] theorem applyEvents_cons (limit : Nat) (s : Shared) (e : PeerEvent)
    (es : List PeerEvent) :
    s.applyEvents limit (e :: es) = (s.applyEvent limit e).applyEvents limit es := rfl

theorem applyEvents_append (limit : Nat) (s : Shared) (es es' : List PeerEvent) :
    s.applyEvents limit (es ++ es') = (s.applyEvents limit es).applyEvents limit es' := by
  simp [applyEvents]

/-- The first channel with an id after a write to it. -/
theorem channel?_modifyChannel_self (s : Shared) (id : RTCDataChannelId) {f : Channel → Channel}
    (hf : ∀ c, (f c).id = c.id) : (s.modifyChannel id f).channel? id = (s.channel? id).map f :=
  Keyed.find?_modify_self hf

/-- A write to one channel leaves the others alone. -/
theorem channel?_modifyChannel_ne (s : Shared) {id id' : RTCDataChannelId} {f : Channel → Channel}
    (hf : ∀ c, (f c).id = c.id) (hne : id' ≠ id) :
    (s.modifyChannel id f).channel? id' = s.channel? id' :=
  Keyed.find?_modify_ne hf hne

/-- A connection-wide close changes the `closed` flags only. -/
theorem channel?_closeChannels (s : Shared) (id : RTCDataChannelId) :
    s.closeChannels.channel? id = (s.channel? id).map Channel.close :=
  Keyed.find?_map fun _ => rfl

theorem drain_channel? (s : Shared) (id : RTCDataChannelId) :
    s.drain.channel? id = s.channel? id := by
  rw [channel?, channel?, s.drain_frame.1]

theorem drain_dead (s : Shared) : s.drain.dead = s.dead := by
  rw [dead, dead, s.drain_frame.2.2.2.1, s.drain_frame.2.2.1]

end Shared

end WebrtcDatachannels.Guest
