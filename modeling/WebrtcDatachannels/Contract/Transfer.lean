import WebrtcDatachannels.Contract.Sinks
import WebrtcDatachannels.Contract.Sources

/-!
# From one implementation to another

A component on one implementation of `lann:webrtc-datachannels` sends to one on another, over an
ordered, reliable channel. The inbound queues of the three implementations are sinks of messages
(`hostSink`, `guestSink`, `jcoSink`), so in all nine pairs the messages received are those whose
sends have returned `Ok`, in the order in which the sending stack took them, with their kinds and
contents (`delivered_in_order`).
-/

namespace WebrtcDatachannels.Contract

open Relay (Service Sink Link LinkAct)

/-! ## Any to any -/

/-- An end that sends, with what it is set up with. -/
inductive Sender where
  | host
  | guest (maxInbound : Nat) (handle : Guest.DataChannel)
  | jco (state : Jco.ReadyState)

/-- An end that receives, with its inbound bound. -/
inductive Receiver where
  | host (maxInbound : Nat)
  | guest (maxInbound : Nat) (id : Guest.RTCDataChannelId) (label : String)
  | jco (maxInbound : Jco.Number)

def Sender.source : Sender → Service Message
  | .host => hostSource
  | .guest maxInbound handle => guestSource maxInbound handle
  | .jco state => jcoSource state

def Receiver.sink : Receiver → Sink Message (Except Error Message)
  | .host maxInbound => hostSink maxInbound
  | .guest maxInbound id label => guestSink maxInbound id label
  | .jco maxInbound => jcoSink maxInbound

/-- Whatever receives, a message is read as it was sent. -/
theorem Receiver.read_sink (receiver : Receiver) : receiver.sink.read = .ok := by
  cases receiver <;> rfl

/-- Over an ordered, reliable channel between any two implementations, in every run: the results
that `receive()` calls and pulls of a stream have returned with a message are messages that the
sending stack has taken, from the first on, in order, each once and as it was sent, text as text;
what the stack has taken are the messages of the sends that have returned `Ok`, each once; and when
all of it has arrived, the inbound buffer has not overflowed, nothing is queued (nor, in the guest,
in the hands of the stream) and, in the guest, no message came after the channel had closed, all of
it has been received. The guest's channel is open at the start. -/
theorem delivered_in_order (sender : Sender) (receiver : Receiver)
    {as : List (LinkAct sender.source.toSource receiver.sink)}
    {l : Link sender.source.toSource receiver.sink}
    (h : Runs.run Link.step (.start sender.source.toSource receiver.sink) as = some l) :
    receiver.sink.got l.sink <+: (sender.source.out l.source).map .ok ∧
      (sender.source.out l.source).Perm (sender.source.done l.source) ∧
      (receiver.sink.Clear l.sink → l.carried = (sender.source.out l.source).length →
        receiver.sink.got l.sink = (sender.source.out l.source).map .ok) := by
  have ho := Link.in_order h
  rw [receiver.read_sink] at ho
  exact ho

/-- A Wasmtime host's two sends are answered the other way round; on a browser-first host one
`receive()` waits when the first message arrives, and another is called after the second. -/
theorem delivered_in_order_of_answers :
    ∃ as l,
      Runs.run Link.step (Link.start hostSource.toSource (jcoSink (.finite 8))) as = some l ∧
      hostSource.out l.source = [.binary [7], .binary [9]] ∧
      (jcoSink (.finite 8)).got l.sink = (hostSource.out l.source).map .ok := by
  have hrun : ∃ as l,
      Runs.run Link.step (Link.start hostSource.toSource (jcoSink (.finite 8))) as = some l ∧
      hostSource.out l.source = [.binary [7], .binary [9]] ∧
      (jcoSink (.finite 8)).Clear l.sink ∧ l.carried = (hostSource.out l.source).length :=
    ⟨[.source (.wire (.ok ())), .source (.send (.binary [9])), .source (.send (.binary [7])),
      .source (.poll 0), .source (.poll 1), .source (.poll 0), .source (.poll 1),
      .sink .receive, .source (.answer 1 (.ok ())), .carry, .source (.answer 0 (.ok ())),
      .carry, .sink .receive], _, rfl, rfl, ⟨rfl, rfl⟩, rfl⟩
  obtain ⟨as, l, h, hout, hclear, hcarried⟩ := hrun
  exact ⟨as, l, h, hout, (delivered_in_order .host (.jco (.finite 8)) h).2.2 hclear hcarried⟩

end WebrtcDatachannels.Contract
