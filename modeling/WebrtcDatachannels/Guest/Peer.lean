import WebrtcDatachannels.Wit

/-!
# The sans-I/O peer

`wasip3-impl/src/peer.rs`. The peer wraps an `rtc` peer connection, of which the model keeps what
`SansIoPeer` reads and calls: the two queues behind `poll_event` and `poll_read`, the labels behind
`data_channel(id)`, and the calls made into it. What the connection answers to a send is not read
off this state; it is an argument of the call.
-/

namespace WebrtcDatachannels.Guest

/-- `rtc::data_channel::RTCDataChannelId`, of which the crate uses the equality only. -/
abbrev RTCDataChannelId := Nat

/-- `rtc::peer_connection::state::RTCPeerConnectionState`. -/
inductive RTCPeerConnectionState where
  | unspecified
  | new
  | connecting
  | connected
  | disconnected
  | failed
  | closed
deriving DecidableEq, Repr

/-- `rtc::peer_connection::event::RTCDataChannelEvent`; `other` stands for the cases that
`drain_events` ignores. -/
inductive RTCDataChannelEvent where
  | onOpen (id : RTCDataChannelId)
  | onClose (id : RTCDataChannelId)
  | other
deriving DecidableEq, Repr

/-- `rtc::peer_connection::event::RTCPeerConnectionEvent`; `other` stands for the cases that
`drain_events` ignores. -/
inductive RTCPeerConnectionEvent where
  | onConnectionStateChangeEvent (state : RTCPeerConnectionState)
  | onDataChannel (event : RTCDataChannelEvent)
  | other
deriving DecidableEq, Repr

/-- `rtc::peer_connection::message::RTCMessage`; `other` stands for the cases that `drain_events`
ignores. -/
inductive RTCMessage where
  | dataChannelMessage (id : RTCDataChannelId) (isString : Bool) (data : Bytes)
  | other
deriving DecidableEq, Repr

/-- An observable change drained from the peer. Source: `PeerEvent`. -/
inductive PeerEvent where
  | connected
  | failed
  | closed
  | channelOpen (id : RTCDataChannelId) (label : String)
  | channelClosed (id : RTCDataChannelId)
  | message (id : RTCDataChannelId) (text : Bool) (data : Bytes)
deriving DecidableEq, Repr

/-- A `send_text` or `send_binary` call on the core. -/
structure CoreSend where
  id : RTCDataChannelId
  message : Message
deriving DecidableEq, Repr

/-- The peer: the core's event and message queues, the labels of its data channels, and the calls
made into it, oldest first. Source: `SansIoPeer`. -/
structure SansIoPeer where
  events : List RTCPeerConnectionEvent
  reads : List RTCMessage
  labels : List (RTCDataChannelId × String)
  sends : List CoreSend
  closedChannels : List RTCDataChannelId
  closes : Nat
deriving DecidableEq, Repr

namespace SansIoPeer

/-- A peer with no data channels. Source: `SansIoPeer::answerer`. -/
def answerer : SansIoPeer :=
  { events := [], reads := [], labels := [], sends := [], closedChannels := [], closes := 0 }

/-- `self.pc.data_channel(id).map(|dc| dc.label().to_owned()).unwrap_or_default()`. -/
def label (p : SansIoPeer) (id : RTCDataChannelId) : String :=
  (p.labels.lookup id).getD ""

/-- The arm of `drain_events` for one polled event. -/
def peerEvent? (p : SansIoPeer) : RTCPeerConnectionEvent → Option PeerEvent
  | .onConnectionStateChangeEvent .connected => some .connected
  | .onConnectionStateChangeEvent .failed => some .failed
  | .onConnectionStateChangeEvent .disconnected => some .closed
  | .onConnectionStateChangeEvent .closed => some .closed
  | .onConnectionStateChangeEvent _ => none
  | .onDataChannel (.onOpen id) => some (.channelOpen id (p.label id))
  | .onDataChannel (.onClose id) => some (.channelClosed id)
  | .onDataChannel .other => none
  | .other => none

/-- The arm of `drain_events` for one polled message. -/
def messageEvent? : RTCMessage → Option PeerEvent
  | .dataChannelMessage id isString data => some (.message id isString data)
  | .other => none

/-- Drain all currently available events and messages into a single list: every queued event, then
every queued message. Source: `SansIoPeer::drain_events`. -/
def drainEvents (p : SansIoPeer) : List PeerEvent × SansIoPeer :=
  (p.events.filterMap p.peerEvent? ++ p.reads.filterMap messageEvent?,
    { p with events := [], reads := [] })

/-- `send_text` and `send_binary`, with the core's answer. -/
def send (p : SansIoPeer) (id : RTCDataChannelId) (message : Message)
    (answer : Except String Unit) : Except String Unit × SansIoPeer :=
  (answer, { p with sends := p.sends ++ [⟨id, message⟩] })

/-- Close a single data channel. Source: `SansIoPeer::close_data_channel`. -/
def closeDataChannel (p : SansIoPeer) (id : RTCDataChannelId) : SansIoPeer :=
  { p with closedChannels := p.closedChannels ++ [id] }

/-- Close the peer connection. Source: `SansIoPeer::close`. -/
def close (p : SansIoPeer) : SansIoPeer := { p with closes := p.closes + 1 }

/-- The core knows a channel it created. Source: `SansIoPeer::create_data_channel`. -/
def createDataChannel (p : SansIoPeer) (id : RTCDataChannelId) (label : String) : SansIoPeer :=
  { p with labels := (id, label) :: p.labels }

end SansIoPeer

end WebrtcDatachannels.Guest
