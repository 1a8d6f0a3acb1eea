import WebrtcDatachannels.Contract.Transfer
import WebrtcDatachannels.Suite.Exchange

/-!
# The suite's exchanges, from one implementation to another

In a two-peer test a peer sends the messages of its exchange and then the sentinel of the barrier,
each when the one before has been sent, and the other peer judges what it receives. Whichever
implementations the two are on, the other peer never rejects what it has received, and accepts it
once all that was sent has arrived and been handed over (`exchange_accepted`).
-/

namespace WebrtcDatachannels.Contract

open Relay (Link LinkAct)
open Suite (channelLabel exchange sentinel twoPeerTests)

/-- What a peer sends in a test. Source: `exchange`, and `send_side` in `barrier`. -/
def script (testId : String) (count size : UInt32) : List Message :=
  (exchange testId channelLabel count size).sends ++ [.binary sentinel]

variable {testId : String} {count size : UInt32}

/-- The receiving task accepts all that is sent, and leaves the sentinel alone. -/
theorem feed_script (ht : testId ∈ twoPeerTests) :
    (exchange testId channelLabel count size).receiver.feed (script testId count size) =
      some (.ok ()) :=
  Suite.Receiver.feed_append (Suite.exchange_accepts ht count size) _

/-- If it returns after a beginning of what is sent, it has accepted that. -/
theorem feed_of_prefix (ht : testId ∈ twoPeerTests) {ms : List Message} {r : Except String Unit}
    (hms : ms <+: script testId count size)
    (h : (exchange testId channelLabel count size).receiver.feed ms = some r) : r = .ok () := by
  obtain ⟨rest, hrest⟩ := hms
  have hfed := Suite.Receiver.feed_append h rest
  rw [hrest] at hfed
  exact Option.some.inj (hfed.symm.trans (feed_script ht))

/-- **The suite's exchanges between any two implementations.** A peer on one sends what it sends in
a two-peer test, each message when the one before has been sent, and a peer on the other receives,
over an ordered, reliable channel. In every run the other peer has received messages of the test
from the first on, in order, and its task, if it has returned, has accepted them; and it has
returned when every send has returned `Ok` and all of it has arrived and been handed over. -/
theorem exchange_accepted (sender : Sender) (receiver : Receiver) (ht : testId ∈ twoPeerTests)
    {as : List (LinkAct (sender.source.inTurn (script testId count size)) receiver.sink)}
    {l : Link (sender.source.inTurn (script testId count size)) receiver.sink}
    (h : Runs.run Link.step
      (.start (sender.source.inTurn (script testId count size)) receiver.sink) as = some l) :
    ∃ ms, receiver.sink.got l.sink = ms.map .ok ∧ ms <+: script testId count size ∧
      (∀ r, (exchange testId channelLabel count size).receiver.feed ms = some r → r = .ok ()) ∧
      ((sender.source.done l.source.state).length = (script testId count size).length →
        receiver.sink.Clear l.sink → l.carried = (script testId count size).length →
        ms = script testId count size ∧
          (exchange testId channelLabel count size).receiver.feed ms = some (.ok ())) := by
  obtain ⟨hgot, -, hall⟩ := Link.in_order h
  obtain ⟨bs, hbs⟩ := Link.run_source h
  obtain ⟨hout, hevery⟩ := Relay.inTurn_in_order hbs
  rw [receiver.read_sink] at hgot hall
  obtain ⟨ms, hms, hgot⟩ := List.prefix_map_iff.1 hgot
  have hpre : ms <+: script testId count size := hms.trans hout
  refine ⟨ms, hgot, hpre, fun r hr => feed_of_prefix ht hpre hr, fun hdone hclear hcarried => ?_⟩
  have hsent := hevery hdone
  have hsame : ms = script testId count size := by
    have hmap := hall hclear (hcarried.trans (congrArg List.length hsent.symm))
    rw [hgot] at hmap
    exact (List.map_injective_iff.2 (fun _ _ => Except.ok.inj) hmap).trans hsent
  refine ⟨hsame, ?_⟩
  rw [hsame]
  exact feed_script ht

/-- A Wasmtime host sends the one message of a test and the sentinel to a browser-first host. -/
theorem exchange_accepted_of_binary : ∃ as l,
    Runs.run Link.step (.start (Sender.host.source.inTurn (script "binary-message" 4 256))
      (Receiver.jco (.finite 64)).sink) as = some l ∧
    ∃ ms, (Receiver.jco (.finite 64)).sink.got l.sink = ms.map .ok ∧
      ms = [.binary [0, 1, 2, 3, 4, 5], .binary sentinel] ∧
      (exchange "binary-message" channelLabel 4 256).receiver.feed ms = some (.ok ()) := by
  have hrun : ∃ as l,
      Runs.run Link.step (.start (Sender.host.source.inTurn (script "binary-message" 4 256))
        (Receiver.jco (.finite 64)).sink) as = some l ∧
      (Sender.host.source.done l.source.state).length = (script "binary-message" 4 256).length ∧
      (Receiver.jco (.finite 64)).sink.Clear l.sink ∧
      l.carried = (script "binary-message" 4 256).length :=
    ⟨[.source (.other (.wire (.ok ()))), .source .call, .source (.other (.poll 0)),
      .source (.other (.poll 0)), .source (.other (.answer 0 (.ok ()))), .source .call, .carry,
      .source (.other (.poll 1)), .source (.other (.poll 1)), .sink .receive,
      .source (.other (.answer 1 (.ok ()))), .carry, .sink .receive], _, rfl, rfl, ⟨rfl, rfl⟩, rfl⟩
  obtain ⟨as, l, h, hdone, hclear, hcarried⟩ := hrun
  obtain ⟨ms, hms, -, -, hall⟩ := exchange_accepted .host (.jco (.finite 64)) (by decide) h
  obtain ⟨rfl, haccepted⟩ := hall hdone hclear hcarried
  exact ⟨as, l, h, _, hms, rfl, haccepted⟩

end WebrtcDatachannels.Contract
