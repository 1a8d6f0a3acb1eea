import Mathlib.Data.List.Basic
import WebrtcDatachannels.Wit
import WebrtcDatachannels.Lib.Runs

/-!
# The event streams of a browser-first peer connection

`jco-impl/webrtc.js`. `eventStream` makes a `ReadableStream` and hands `push` and `end` to the code
that listens to an event; JavaScript runs each event handler to its end. The stream follows the
WHATWG rules for a default controller: what is enqueued before the close is read first, and
`enqueue` and `close` throw once a close was requested. A `PeerConnection` has two such streams,
which its methods return at every call. Its streams are delivered as the interface says in a run
exactly when every step `Heeds` that (`event_streams_iff`).
-/

namespace WebrtcDatachannels.Jco

/-- A `TypeError` of the stream's controller. -/
inductive Thrown where
  | typeError
deriving DecidableEq, Repr

/-- What a read of a stream finds: nothing yet, a value, or the end. -/
inductive Read (α : Type) where
  | pending
  | value (x : α)
  | done
deriving DecidableEq, Repr

/-- A `ReadableStream` with its default controller. -/
structure ReadableStream (α : Type) where
  queue : List α
  closeRequested : Bool
deriving DecidableEq, Repr

namespace ReadableStream

variable {α : Type}

/-- `controller.enqueue(chunk)`. -/
def enqueue (s : ReadableStream α) (x : α) : Except Thrown (ReadableStream α) :=
  if s.closeRequested then .error .typeError else .ok { s with queue := s.queue ++ [x] }

/-- `controller.close()`. -/
def close (s : ReadableStream α) : Except Thrown (ReadableStream α) :=
  if s.closeRequested then .error .typeError else .ok { s with closeRequested := true }

/-- `reader.read()`. -/
def read (s : ReadableStream α) : Read α × ReadableStream α :=
  match s.queue with
  | x :: rest => (.value x, { s with queue := rest })
  | [] => (if s.closeRequested then .done else .pending, s)

/-- What `n` reads one after another find when nothing else happens. -/
def reads : Nat → ReadableStream α → List (Read α)
  | 0, _ => []
  | n + 1, s => s.read.1 :: reads n s.read.2

/-- Read on, the stream yields what is queued and then the end. -/
def Ends (s : ReadableStream α) : Prop :=
  s.reads (s.queue.length + 1) = s.queue.map .value ++ [.done]

end ReadableStream

/-! ## `eventStream` -/

/-- The variables of an `eventStream`, and its stream; `controller` is set once the stream has
started. -/
structure EventStream (α : Type) where
  controller : Bool
  ended : Bool
  buffer : List α
  stream : ReadableStream α
deriving DecidableEq, Repr

namespace EventStream

variable {α : Type}

/-- The variables before the stream is made. -/
def blank : EventStream α :=
  { controller := false, ended := false, buffer := [], stream := ⟨[], false⟩ }

/-- Source: `start` in `eventStream`. -/
def start (s : EventStream α) : Except Thrown (EventStream α) := do
  let stream ← s.buffer.foldlM ReadableStream.enqueue s.stream
  let stream ← if s.ended then stream.close else pure stream
  return { s with controller := true, buffer := [], stream }

/-- Source: `push` in `eventStream`. -/
def push (s : EventStream α) (item : α) : Except Thrown (EventStream α) :=
  if s.controller then (s.stream.enqueue item).map fun stream => { s with stream }
  else .ok { s with buffer := s.buffer ++ [item] }

/-- Source: `end` in `eventStream`. -/
def endStream (s : EventStream α) : EventStream α :=
  if s.ended then s
  else if s.controller then
    { s with ended := true, stream := s.stream.close.toOption.getD s.stream }
  else { s with ended := true }

/-- An event stream whose `ReadableStream` is made, which calls `start` at once. -/
def new : EventStream α := blank.start.toOption.getD blank

end EventStream

/-! ## The connection -/

/-- The `candidate` of an `icecandidate` event. -/
structure RtcIceCandidate where
  candidate : String
  sdpMid : Option String
  sdpMLineIndex : Option Nat
deriving DecidableEq, Repr

/-- The candidate as the stream yields it. Source: the handler of `icecandidate` events. -/
def RtcIceCandidate.toWit (c : RtcIceCandidate) : IceCandidate :=
  { candidate := c.candidate, sdpMid := c.sdpMid, sdpMlineIndex := c.sdpMLineIndex }

/-- An `RTCDataChannel`, by a number; the `DataChannel` made over it goes by the same. -/
abbrev ChannelId := Nat

/-- One stream of a connection: its event stream, the stream as each call of its method found it,
what was read from it, and the events before its end. -/
structure Tap (α : Type) where
  source : EventStream α
  taken : List (ReadableStream α)
  yielded : List α
  delivered : List α

namespace Tap

variable {α : Type}

/-- A stream as the constructor makes it. -/
def new : Tap α := { source := .new, taken := [], yielded := [], delivered := [] }

/-- The handler pushes an item; with whether it throws. -/
def push (t : Tap α) (item : α) : Tap α × Bool :=
  let t := { t with delivered := if t.source.ended then t.delivered else t.delivered ++ [item] }
  match t.source.push item with
  | .ok source => ({ t with source }, false)
  | .error _ => (t, true)

/-- The handler ends the stream. -/
def endStream (t : Tap α) : Tap α := { t with source := t.source.endStream }

/-- A call of the method returns the stream. Source: `localIceCandidates`,
`incomingDataChannels`. -/
def take (t : Tap α) : Tap α := { t with taken := t.taken ++ [t.source.stream] }

/-- A read of the stream by a guest that has it. -/
def read (t : Tap α) : Option (Tap α) :=
  if t.taken = [] then none
  else
    some
      { t with
        source := { t.source with stream := t.source.stream.read.2 }
        yielded :=
          match t.source.stream.read.1 with
          | .value x => t.yielded ++ [x]
          | _ => t.yielded }

end Tap

/-- A peer connection: its two streams, whether it was closed, and how often an event handler
threw. -/
structure PeerConnection where
  candidates : Tap IceCandidate
  channels : Tap ChannelId
  closed : Bool
  throws : Nat

/-- What can happen on a connection. -/
inductive ConnAct where
  | iceCandidate (candidate : Option RtcIceCandidate)
  | dataChannel (channel : ChannelId)
  | close
  | localIceCandidates
  | incomingDataChannels
  | readCandidate
  | readChannel

namespace PeerConnection

/-- A connection as its constructor returns it. -/
def start : PeerConnection := { candidates := .new, channels := .new, closed := false, throws := 0 }

/-- The handler of `icecandidate` events. -/
def onIceCandidate (s : PeerConnection) : Option RtcIceCandidate → PeerConnection
  | none => { s with candidates := s.candidates.endStream }
  | some c =>
    if c.candidate = "" then { s with candidates := s.candidates.endStream }
    else
      let p := s.candidates.push c.toWit
      { s with candidates := p.1, throws := s.throws + p.2.toNat }

/-- The handler of `datachannel` events. -/
def onDataChannel (s : PeerConnection) (channel : ChannelId) : PeerConnection :=
  let p := s.channels.push channel
  { s with channels := p.1, throws := s.throws + p.2.toNat }

/-- One step. -/
def step (s : PeerConnection) : ConnAct → Option PeerConnection
  | .iceCandidate candidate => some (s.onIceCandidate candidate)
  | .dataChannel channel => some (s.onDataChannel channel)
  | .close => some { s with closed := true }
  | .localIceCandidates => some { s with candidates := s.candidates.take }
  | .incomingDataChannels => some { s with channels := s.channels.take }
  | .readCandidate => s.candidates.read.map fun candidates => { s with candidates }
  | .readChannel => s.channels.read.map fun channels => { s with channels }

end PeerConnection

/-! ## What the interface says -/

/-- The first call's stream yields the events before the end, each once and in their order; and each
later call found its stream at the end. -/
structure Tap.Delivers {α : Type} (t : Tap α) : Prop where
  first : t.yielded ++ t.source.stream.queue = t.delivered
  later : ∀ s ∈ t.taken.tail, s.read.1 = .done

/-- Both streams are delivered, no handler threw, and once the connection is closed both streams
end. -/
structure PeerConnection.Delivers (s : PeerConnection) : Prop where
  candidates : s.candidates.Delivers
  channels : s.channels.Delivers
  quiet : s.throws = 0
  closed : s.closed = true → s.candidates.source.stream.Ends ∧ s.channels.source.stream.Ends

/-- The connection is not closed; no candidate comes after the end; the candidates are taken again
only when their stream is at its end, and the channels never. -/
def PeerConnection.Heeds (s : PeerConnection) : ConnAct → Prop
  | .close => False
  | .iceCandidate (some c) => c.candidate = "" ∨ s.candidates.source.ended = false
  | .localIceCandidates => s.candidates.taken = [] ∨ s.candidates.source.stream.read.1 = .done
  | .incomingDataChannels => s.channels.taken = []
  | _ => True

namespace ReadableStream

variable {α : Type} {s : ReadableStream α}

/-- A read finds the end when nothing is queued and the close was requested. -/
theorem read_done_iff : s.read.1 = .done ↔ s.queue = [] ∧ s.closeRequested = true := by
  unfold read
  cases hq : s.queue with
  | nil => cases hc : s.closeRequested <;> simp
  | cons x rest => simp

/-- Reads past the queued items yield them, and then the end if the close was requested. -/
theorem reads_eq (s : ReadableStream α) :
    s.reads (s.queue.length + 1) =
      s.queue.map .value ++ [if s.closeRequested then .done else .pending] := by
  obtain ⟨queue, closeRequested⟩ := s
  induction queue with
  | nil => rfl
  | cons x rest ih =>
    rw [List.length_cons, reads, List.map_cons, List.cons_append]
    exact congrArg (Read.value x :: ·) ih

/-- The stream ends exactly when its close was requested. -/
theorem ends_iff : s.Ends ↔ s.closeRequested = true := by
  rw [Ends, reads_eq]
  cases s.closeRequested <;> simp

end ReadableStream

/-! ## One stream -/

/-- What a run keeps of a stream: it has started, its close was requested when its source ended, and
it is delivered. -/
structure Tap.Inv {α : Type} (t : Tap α) : Prop where
  started : t.source.controller = true
  ended : t.source.stream.closeRequested = t.source.ended
  delivers : t.Delivers

namespace Tap

variable {α : Type} {t t' : Tap α} {item : α}

theorem inv_new : (new : Tap α).Inv := ⟨rfl, rfl, rfl, nofun⟩

/-- A handler that pushes before the end does not throw. -/
theorem Inv.push (h : t.Inv) (he : t.source.ended = false) (item : α) :
    (t.push item).1.Inv ∧ (t.push item).2 = false ∧
      (t.push item).1.source.ended = false := by
  have hopen : t.source.stream.closeRequested = false := h.ended.trans he
  have hpush : t.push item =
      ({ t with
        source :=
          { t.source with
            stream := { t.source.stream with queue := t.source.stream.queue ++ [item] } }
        delivered := t.delivered ++ [item] }, false) := by
    simp [Tap.push, EventStream.push, ReadableStream.enqueue, Except.map, h.started, he, hopen]
  rw [hpush]
  refine ⟨⟨h.started, h.ended, ?_, h.delivers.later⟩, rfl, he⟩
  rw [← h.delivers.first, List.append_assoc]

/-- A handler that pushes after the end throws. -/
theorem Inv.push_throws (h : t.Inv) (he : t.source.ended = true) (item : α) :
    (t.push item).2 = true := by
  have hclosed : t.source.stream.closeRequested = true := h.ended.trans he
  simp [Tap.push, EventStream.push, ReadableStream.enqueue, Except.map, h.started, hclosed]

theorem Inv.endStream (h : t.Inv) : t.endStream.Inv := by
  cases he : t.source.ended with
  | true =>
    have hsame : t.endStream = t := by simp [Tap.endStream, EventStream.endStream, he]
    rw [hsame]
    exact h
  | false =>
    have hopen : t.source.stream.closeRequested = false := h.ended.trans he
    have hend : t.endStream =
        { t with
          source :=
            { t.source with
              ended := true
              stream := { t.source.stream with closeRequested := true } } } := by
      simp [Tap.endStream, EventStream.endStream, ReadableStream.close, Except.toOption, h.started,
        he, hopen]
    rw [hend]
    exact ⟨h.started, rfl, h.delivers.first, h.delivers.later⟩

/-- The first call, or a later one that finds the stream at its end. -/
theorem Inv.take (h : t.Inv) (ht : t.taken = [] ∨ t.source.stream.read.1 = .done) :
    t.take.Inv := by
  refine ⟨h.started, h.ended, h.delivers.first, fun s hs => ?_⟩
  obtain ht | ht := ht
  · have hone : t.take.taken.tail = [] := by simp [Tap.take, ht]
    rw [hone] at hs
    cases hs
  · cases htaken : t.taken with
    | nil => simp [Tap.take, htaken] at hs
    | cons first rest =>
      simp only [Tap.take, htaken, List.cons_append, List.tail_cons, List.mem_append,
        List.mem_singleton] at hs
      obtain hs | rfl := hs
      · exact h.delivers.later s (by rw [htaken]; exact hs)
      · exact ht

/-- A later call that finds the stream before its end is not delivered. -/
theorem not_delivers_take (ht : t.taken ≠ []) (hr : t.source.stream.read.1 ≠ .done) :
    ¬ t.take.Delivers := by
  intro h
  refine hr (h.later _ ?_)
  rw [Tap.take, List.tail_append_of_ne_nil ht]
  exact List.mem_append_right _ (List.mem_singleton_self _)

theorem Inv.read (h : t.Inv) (hr : t.read = some t') :
    t'.Inv ∧ t'.source.ended = t.source.ended := by
  unfold Tap.read at hr
  split at hr
  · cases hr
  · cases hr
    refine ⟨⟨h.started, ?_, ?_, h.delivers.later⟩, rfl⟩
    · refine Eq.trans ?_ h.ended
      unfold ReadableStream.read
      split <;> rfl
    · rw [← h.delivers.first]
      unfold ReadableStream.read
      cases hq : t.source.stream.queue with
      | nil => cases hc : t.source.stream.closeRequested <;> simp [hq]
      | cons x rest => simp

end Tap

/-! ## The connection -/

namespace PeerConnection

/-- What a run keeps while its steps heed the interface. -/
structure Inv (s : PeerConnection) : Prop where
  candidates : s.candidates.Inv
  channels : s.channels.Inv
  endless : s.channels.source.ended = false
  quiet : s.throws = 0
  closed : s.closed = false

variable {s s' : PeerConnection} {a : ConnAct} {as : List ConnAct}

theorem inv_start : start.Inv := ⟨Tap.inv_new, Tap.inv_new, rfl, rfl, rfl⟩

theorem Inv.delivers (h : s.Inv) : s.Delivers :=
  ⟨h.candidates.delivers, h.channels.delivers, h.quiet, by rw [h.closed]; nofun⟩

theorem Inv.step (h : s.Inv) (hC : s.Heeds a) (hs : s.step a = some s') : s'.Inv := by
  cases a with
  | iceCandidate candidate =>
    cases hs
    cases candidate with
    | none => exact ⟨h.candidates.endStream, h.channels, h.endless, h.quiet, h.closed⟩
    | some c =>
      simp only [onIceCandidate]
      split
      · exact ⟨h.candidates.endStream, h.channels, h.endless, h.quiet, h.closed⟩
      · next hc =>
        obtain ⟨hinv, hquiet, -⟩ := h.candidates.push (hC.resolve_left hc) c.toWit
        exact ⟨hinv, h.channels, h.endless, by simp [hquiet, h.quiet], h.closed⟩
  | dataChannel channel =>
    cases hs
    obtain ⟨hinv, hquiet, hendless⟩ := h.channels.push h.endless channel
    exact ⟨h.candidates, hinv, hendless, by simp [onDataChannel, hquiet, h.quiet], h.closed⟩
  | close => exact hC.elim
  | localIceCandidates =>
    cases hs
    exact ⟨h.candidates.take hC, h.channels, h.endless, h.quiet, h.closed⟩
  | incomingDataChannels =>
    cases hs
    exact ⟨h.candidates, h.channels.take (.inl hC), h.endless, h.quiet, h.closed⟩
  | readCandidate =>
    obtain ⟨t, ht, rfl⟩ := Option.map_eq_some_iff.1 hs
    exact ⟨(h.candidates.read ht).1, h.channels, h.endless, h.quiet, h.closed⟩
  | readChannel =>
    obtain ⟨t, ht, rfl⟩ := Option.map_eq_some_iff.1 hs
    obtain ⟨hinv, hended⟩ := h.channels.read ht
    exact ⟨h.candidates, hinv, hended.trans h.endless, h.quiet, h.closed⟩

/-- A step that does not heed the interface breaks it. -/
theorem Inv.not_delivers (h : s.Inv) (hC : ¬ s.Heeds a) (hs : s.step a = some s') :
    ¬ s'.Delivers := by
  intro hd
  cases a with
  | iceCandidate candidate =>
    cases hs
    cases candidate with
    | none => exact hC trivial
    | some c =>
      obtain ⟨hc, he⟩ := not_or.1 hC
      have hthrows := h.candidates.push_throws (eq_true_of_ne_false he) c.toWit
      have hquiet := hd.quiet
      simp [onIceCandidate, hc, hthrows] at hquiet
  | close =>
    cases hs
    -- nothing ends the stream of incoming channels
    have hends := ReadableStream.ends_iff.1 (hd.closed rfl).2
    rw [h.channels.ended, h.endless] at hends
    cases hends
  | localIceCandidates =>
    cases hs
    obtain ⟨ht, hr⟩ := not_or.1 hC
    exact Tap.not_delivers_take ht hr hd.candidates
  | incomingDataChannels =>
    cases hs
    refine Tap.not_delivers_take hC (fun hr => ?_) hd.channels
    have hends := (ReadableStream.read_done_iff.1 hr).2
    rw [h.channels.ended, h.endless] at hends
    cases hends
  | dataChannel | readCandidate | readChannel => exact hC trivial

end PeerConnection

/-- In every run of a connection its two streams are delivered as the interface says exactly when
every step heeds it. -/
theorem event_streams_iff {as : List ConnAct} {s : PeerConnection}
    (h : Runs.run PeerConnection.step .start as = some s) :
    Runs.Along PeerConnection.step PeerConnection.Delivers .start as ↔
      Runs.Meets PeerConnection.step PeerConnection.Heeds .start as :=
  Runs.along_iff_meets (fun _ => PeerConnection.Inv.delivers)
    (fun _ _ _ hi hC hs => hi.step hC hs) (fun _ _ _ hi hC hs => hi.not_delivers hC hs)
    PeerConnection.inv_start h

/-- Two candidates and the end, the first read before the second comes; the candidates are taken
again when they are read to the end, and a remote channel is read. -/
theorem event_streams_of_heeded :
    ∃ s, Runs.run PeerConnection.step .start
        [.iceCandidate (some ⟨"a", none, some 0⟩), .localIceCandidates, .readCandidate,
          .iceCandidate (some ⟨"b", none, some 0⟩), .iceCandidate none, .readCandidate,
          .localIceCandidates, .incomingDataChannels, .dataChannel 7, .readChannel] = some s ∧
      Runs.Along PeerConnection.step PeerConnection.Delivers .start
        [.iceCandidate (some ⟨"a", none, some 0⟩), .localIceCandidates, .readCandidate,
          .iceCandidate (some ⟨"b", none, some 0⟩), .iceCandidate none, .readCandidate,
          .localIceCandidates, .incomingDataChannels, .dataChannel 7, .readChannel] := by
  refine ⟨_, rfl, (@event_streams_iff
    [.iceCandidate (some ⟨"a", none, some 0⟩), .localIceCandidates, .readCandidate,
      .iceCandidate (some ⟨"b", none, some 0⟩), .iceCandidate none, .readCandidate,
      .localIceCandidates, .incomingDataChannels, .dataChannel 7, .readChannel] _ rfl).2 ?_⟩
  refine (Runs.meets_cons rfl).2 ⟨.inr rfl, ?_⟩
  refine (Runs.meets_cons rfl).2 ⟨.inl rfl, ?_⟩
  refine (Runs.meets_cons rfl).2 ⟨trivial, ?_⟩
  refine (Runs.meets_cons rfl).2 ⟨.inr rfl, ?_⟩
  iterate 2 refine (Runs.meets_cons rfl).2 ⟨trivial, ?_⟩
  refine (Runs.meets_cons rfl).2 ⟨.inr rfl, ?_⟩
  refine (Runs.meets_cons rfl).2 ⟨rfl, ?_⟩
  iterate 2 refine (Runs.meets_cons rfl).2 ⟨trivial, ?_⟩
  trivial

/-- A candidate after the end makes the handler throw; a second call of `localIceCandidates` gets a
stream that yields; and a close ends neither stream. -/
theorem event_streams_not_delivered :
    ¬ Runs.Along PeerConnection.step PeerConnection.Delivers .start
      [.iceCandidate none, .iceCandidate (some ⟨"a", none, some 0⟩)] ∧
    ¬ Runs.Along PeerConnection.step PeerConnection.Delivers .start
      [.iceCandidate (some ⟨"a", none, some 0⟩), .localIceCandidates, .localIceCandidates] ∧
    ¬ Runs.Along PeerConnection.step PeerConnection.Delivers .start
      [.localIceCandidates, .incomingDataChannels, .close] := by
  refine ⟨fun h => ?_, fun h => ?_, fun h => ?_⟩
  · have hquiet := (h _ List.prefix_rfl _ rfl).quiet
    cases hquiet
  · have hlater := (h _ List.prefix_rfl _ rfl).candidates.later _ (List.mem_singleton_self _)
    cases hlater
  · have hends := ReadableStream.ends_iff.1 ((h _ List.prefix_rfl _ rfl).closed rfl).2
    cases hends

end WebrtcDatachannels.Jco
