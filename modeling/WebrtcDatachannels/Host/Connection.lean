import WebrtcDatachannels.Guest.Peer
import WebrtcDatachannels.Host.Teardown

/-!
# The connection state of a Wasmtime peer connection

`wasmtime-impl/src/peer_connection.rs`. `ConnState` is what the state handler keeps for
`wait_connected`, two flags that are set and never cleared; on the states that end a connection the
handler fires the close signal of its channels as well. What is left of a sequence of changes is
whether one of them was `connected`, and whether one of them was an end
(`Lifecycle.foldl_onConnectionState`).
-/

namespace WebrtcDatachannels.Host

open Guest (RTCPeerConnectionState)

/-- Connection-state signalling shared with the state-change handler, less the `Notify` that
`wait_connected` sleeps on. Source: `ConnState`. -/
structure ConnState where
  connected : Bool
  failed : Bool
deriving DecidableEq, Repr

/-- `ConnState::default`. -/
def ConnState.new : ConnState := { connected := false, failed := false }

/-- Source: `CloseTrigger::fire`. -/
def Signal.fire (_ : Signal) : Signal := { flag := true, sent := true }

/-- What the state handler writes: the flags and the close signal. -/
structure Lifecycle where
  state : ConnState
  signal : Signal
deriving DecidableEq, Repr

namespace Lifecycle

/-- Before any change. -/
def new : Lifecycle := { state := .new, signal := { flag := false, sent := false } }

/-- The handler of one state change. Source: `on_connection_state` in `connection_handler`. -/
def onConnectionState (l : Lifecycle) : RTCPeerConnectionState → Lifecycle
  | .connected => { l with state.connected := true }
  | .failed | .closed => { l with state.failed := true, signal := l.signal.fire }
  | _ => l

end Lifecycle

/-- One pass of the loop of `wait_connected` on a built connection, before the timeout; `none` when
it goes on waiting. -/
def waitConnected (s : ConnState) : Option (Except Error Unit) :=
  if s.connected then some (.ok ())
  else if s.failed then some (.error .closed)
  else none

/-- The states that end a connection. -/
def ends : RTCPeerConnectionState → Bool
  | .failed | .closed => true
  | _ => false

/-- The handler after a sequence of changes: the flags say whether the connection was connected, and
whether it ended; the signal fired with its end. -/
theorem Lifecycle.foldl_onConnectionState (l : Lifecycle) (sts : List RTCPeerConnectionState) :
    sts.foldl onConnectionState l =
      { state :=
          { connected := l.state.connected || sts.contains .connected
            failed := l.state.failed || sts.any ends }
        signal := if sts.any ends then l.signal.fire else l.signal } := by
  induction sts generalizing l with
  | nil => simp
  | cons st sts ih =>
    rw [List.foldl_cons, ih]
    cases st <;> simp [onConnectionState, ends, Signal.fire]

end WebrtcDatachannels.Host
