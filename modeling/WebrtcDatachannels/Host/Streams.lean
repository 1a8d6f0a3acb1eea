import WebrtcDatachannels.Host.Connection
import WebrtcDatachannels.Lib.Mpsc
import WebrtcDatachannels.Lib.Runs

/-!
# The streams of a Wasmtime peer connection

`wasmtime-impl/src/host.rs` and `peer_connection.rs`. Each of the two streams reads one queue, whose
senders are with the event handler and, for the incoming channels, with the tasks that adopt them. A
producer ends when no sender is left (`Source.ends_iff`); it does not look at the close signal.
`Streams` is one connection with the two queues, everything that holds their senders, and the
producers. Its streams end with the close exactly when no sender is left by then
(`Streams.streams_end_iff`).
-/

namespace WebrtcDatachannels.Host

open Guest (RTCPeerConnectionState)
open Mpsc (Chan Poll)

/-! ## Producers -/

/-- What a poll of a producer returns: `Poll::Pending`, or a `StreamResult`, with the item that a
completed one delivers. -/
inductive Yielded (β : Type) where
  | pending
  | cancelled
  | dropped
  | completed (item : β)
deriving DecidableEq

/-- The `match` on `rx.poll_next_unpin`. -/
def Yielded.ofPoll {α : Type} (finish : Bool) : Poll α → Yielded α
  | .pending => if finish then .cancelled else .pending
  | .ended => .dropped
  | .item x => .completed x

/-- The item as the stream delivers it. -/
def Yielded.map {α β : Type} (f : α → β) : Yielded α → Yielded β
  | .pending => .pending
  | .cancelled => .cancelled
  | .dropped => .dropped
  | .completed x => .completed (f x)

/-- The `rx` of a producer, `Some` or `None`, or its reader is gone. -/
inductive Rx where
  | some
  | none
  | gone
deriving DecidableEq, Repr

/-- One of the two queues, with whether its receiver is still in `Inner`, and the producers of the
calls so far. -/
structure Source (α : Type) where
  chan : Chan α
  inner : Bool
  producers : List Rx

namespace Source

variable {α : Type}

/-- A queue with one sender. -/
def new (senders : Nat) : Source α := { chan := .new senders, inner := true, producers := [] }

/-- A producer has the receiver. -/
def Claimed (s : Source α) : Prop := .some ∈ s.producers

instance (s : Source α) : Decidable s.Claimed := inferInstanceAs (Decidable (_ ∈ _))

/-- `unbounded_send`, which a dropped receiver makes a no-op. -/
def send (s : Source α) (x : α) : Source α :=
  if s.inner = true ∨ s.Claimed then { s with chan := s.chan.send x } else s

/-- A call takes the receiver, or finds it taken. Source: `take_local_candidates`,
`take_incoming_channels`. -/
def take (s : Source α) : Source α :=
  { s with inner := false, producers := s.producers ++ [if s.inner then .some else .none] }

/-- Source: `poll_produce` of `LocalCandidateStream` and `IncomingChannelStream`, before the item is
delivered. -/
def pollProduce (s : Source α) (i : Nat) (finish : Bool) : Option (Yielded α × Source α) :=
  match s.producers[i]? with
  | some .none => some (.dropped, s)
  | some .some =>
    some
      (.ofPoll finish s.chan.poll.1,
        { s with
          chan := s.chan.poll.2
          producers :=
            match s.chan.poll.1 with
            | .ended => s.producers.set i .none
            | _ => s.producers })
  | _ => none

/-- The guest drops the reader of a stream, and with it the producer. -/
def dropReader (s : Source α) (i : Nat) : Source α :=
  { s with producers := s.producers.set i .gone }

/-- What the polls of a producer return, one for each `finish` flag, when nothing else happens. -/
def polls (i : Nat) : List Bool → Source α → List (Yielded α)
  | [], _ => []
  | finish :: flags, s =>
    match s.pollProduce i finish with
    | some (r, s') => r :: polls i flags s'
    | none => []

/-- The items queued for a producer. -/
def queued (s : Source α) (i : Nat) : List α :=
  if s.producers[i]? = some .some then s.chan.queue else []

/-- Polled again and again, every producer yields the items queued for it and then the end. -/
def Ends (s : Source α) : Prop :=
  ∀ i, s.producers[i]? = some .some ∨ s.producers[i]? = some .none →
    ∀ flags : List Bool, flags.length = (s.queued i).length + 1 →
      polls i flags s = (s.queued i).map .completed ++ [.dropped]

end Source

/-! ## The connection -/

/-- A locally gathered ICE candidate. Source: `LocalCandidate`. -/
structure LocalCandidate where
  candidate : String
  sdpMid : Option String
  sdpMlineIndex : Option Nat
deriving DecidableEq, Repr

/-- `connections.ice-candidate`. -/
structure IceCandidate where
  candidate : String
  sdpMid : Option String
  sdpMlineIndex : Option Nat
deriving DecidableEq, Repr

/-- The conversion in `poll_produce` of `LocalCandidateStream`. -/
def LocalCandidate.toWit (c : LocalCandidate) : IceCandidate :=
  { candidate := c.candidate, sdpMid := c.sdpMid, sdpMlineIndex := c.sdpMlineIndex }

/-- A channel opened by the remote peer, of which the stream needs nothing but the value. Source:
`DataChannel::deferred`. -/
structure RemoteChannel where
  label : String
deriving DecidableEq, Repr

/-- Source: `poll_produce` of `LocalCandidateStream`. -/
def pollLocalCandidate (s : Source LocalCandidate) (i : Nat) (finish : Bool) :
    Option (Yielded IceCandidate × Source LocalCandidate) :=
  (s.pollProduce i finish).map fun p => (p.1.map LocalCandidate.toWit, p.2)

/-- Source: `poll_produce` of `IncomingChannelStream`, with the resource table it pushes the channel
onto; a resource is a place in the table. -/
def pollIncomingChannel (s : Source RemoteChannel) (table : List RemoteChannel) (i : Nat)
    (finish : Bool) : Option (Yielded Nat × List RemoteChannel × Source RemoteChannel) :=
  (s.pollProduce i finish).map fun p =>
    match p.1 with
    | .completed channel => (.completed table.length, table ++ [channel], p.2)
    | r => (r.map fun _ => table.length, table, p.2)

/-- How far the build task got: there is none without a runtime. Source: `PeerConnection::new_with`.
-/
inductive Build where
  | noRuntime
  | building
  | built
  | failed
deriving DecidableEq, Repr

/-- A connection, as far as its streams go: the build task; whether `Inner` is alive and holds the
connection for `close`; the handles to the built connection in other tasks; whether the event
handler is alive and its candidate sender in place; the tasks that adopt a remote channel; the two
queues; the resource table; and what the state handler and `close` write. -/
structure Streams where
  build : Build
  inner : Bool
  pc : Bool
  borrowed : Nat
  handler : Bool
  candTx : Bool
  adopting : Nat
  candidates : Source LocalCandidate
  incoming : Source RemoteChannel
  table : List RemoteChannel
  lifecycle : Lifecycle

/-- What can happen: the build ends; a task takes or drops a handle; `Inner` or the handler is
dropped; the stack calls the handler; a remote channel is adopted; the guest closes the connection,
takes a stream, reads it, or drops its reader. -/
inductive StreamAct where
  | built (ok : Bool)
  | borrow
  | release
  | dropInner
  | dropHandler
  | iceCandidate (init : Option LocalCandidate)
  | gatheringComplete
  | dataChannel
  | adopted (label : Option String)
  | connectionState (state : RTCPeerConnectionState)
  | close
  | localIceCandidates
  | incomingDataChannels
  | pollCandidates (i : Nat) (finish : Bool)
  | pollIncoming (i : Nat) (finish : Bool)
  | dropCandidates (i : Nat)
  | dropIncoming (i : Nat)

namespace Streams

/-- `PeerConnection::new_with`: without a runtime the senders are dropped at once. -/
def start (runtime : Bool) : Streams :=
  { build := if runtime then .building else .noRuntime
    inner := true
    pc := false
    borrowed := 0
    handler := runtime
    candTx := true
    adopting := 0
    candidates := .new runtime.toNat
    incoming := .new runtime.toNat
    table := []
    lifecycle := .new }

/-- A handle to the built connection exists: the one in `Inner::built`, or another. -/
def Handled (s : Streams) : Prop := s.build = .built ∧ (s.inner = true ∨ 0 < s.borrowed)

instance (s : Streams) : Decidable s.Handled := inferInstanceAs (Decidable (_ ∧ _))

/-- `close_peer_connections` of what was taken out of `Inner::pc`: a task with the handle. -/
def teardown (s : Streams) : Streams :=
  { s with pc := false, borrowed := s.borrowed + s.pc.toNat }

/-- The handler is dropped with the senders it has left. -/
def dropHandler (s : Streams) : Streams :=
  { s with
    handler := false
    candidates :=
      if s.candTx then { s.candidates with chan := s.candidates.chan.drop } else s.candidates
    incoming := { s.incoming with chan := s.incoming.chan.drop } }

/-- Source: `on_gathering_complete` in `connection_handler`. -/
def gatheringComplete (s : Streams) : Streams :=
  if s.candTx then
    { s with
      candTx := false
      candidates := { s.candidates with chan := s.candidates.chan.drop } }
  else s

/-- The end of the task that `on_data_channel` spawned. Source: `connection_handler`. -/
def adopted (s : Streams) (label : Option String) : Streams :=
  let sent := s.incoming.send { label := label.getD "" }
  { s with adopting := s.adopting - 1, incoming := { sent with chan := sent.chan.drop } }

/-- One step. The handler stays alive as long as a handle to the built connection does; a build that
fails drops it. -/
def step (s : Streams) : StreamAct → Option Streams
  | .built ok =>
    if s.build = .building then
      if ok then some { s with build := .built, pc := true }
      else some { s.dropHandler with build := .failed }
    else none
  | .borrow => if s.Handled then some { s with borrowed := s.borrowed + 1 } else none
  | .release => if 0 < s.borrowed then some { s with borrowed := s.borrowed - 1 } else none
  | .dropInner =>
    if s.inner then
      some
        { s.teardown with
          inner := false
          candidates := { s.candidates with inner := false }
          incoming := { s.incoming with inner := false } }
    else none
  | .dropHandler =>
    if s.handler = true ∧ s.build = .built ∧ ¬ s.Handled then some s.dropHandler else none
  | .iceCandidate init =>
    if s.handler then
      match init with
      | some candidate =>
        some (if s.candTx then { s with candidates := s.candidates.send candidate } else s)
      | none => some s
    else none
  | .gatheringComplete => if s.handler then some s.gatheringComplete else none
  | .dataChannel =>
    if s.handler then
      some
        { s with
          adopting := s.adopting + 1
          incoming := { s.incoming with chan := s.incoming.chan.clone } }
    else none
  | .adopted label => if 0 < s.adopting then some (s.adopted label) else none
  | .connectionState state =>
    if s.handler then some { s with lifecycle := s.lifecycle.onConnectionState state } else none
  | .close =>
    if s.inner then
      some { s.teardown with lifecycle.signal := s.lifecycle.signal.fire }
    else none
  | .localIceCandidates =>
    if s.inner then some { s with candidates := s.candidates.take } else none
  | .incomingDataChannels =>
    if s.inner then some { s with incoming := s.incoming.take } else none
  | .pollCandidates i finish =>
    (pollLocalCandidate s.candidates i finish).map fun p => { s with candidates := p.2 }
  | .pollIncoming i finish =>
    (pollIncomingChannel s.incoming s.table i finish).map fun p =>
      { s with table := p.2.1, incoming := p.2.2 }
  | .dropCandidates i => some { s with candidates := s.candidates.dropReader i }
  | .dropIncoming i => some { s with incoming := s.incoming.dropReader i }

/-- When the close trigger has fired, both streams end. -/
def Ended (s : Streams) : Prop :=
  s.lifecycle.signal.Fired → s.candidates.Ends ∧ s.incoming.Ends

/-- The candidate queue has no sender: gathering is complete, or the handler is gone. -/
def GatheringOver (s : Streams) : Prop := s.handler = false ∨ s.candTx = false

/-- The queue of incoming channels has no sender: the handler is gone, and no channel is being
adopted. -/
def OpensOver (s : Streams) : Prop := s.handler = false ∧ s.adopting = 0

/-- The streams that the guest reads have no sender. -/
def Over (s : Streams) : Prop :=
  (s.candidates.Claimed → s.GatheringOver) ∧ (s.incoming.Claimed → s.OpensOver)

/-- The close trigger fires only when the streams that the guest reads have no sender, and after
that the guest takes the receiver of a stream only when that has none. -/
def ClosesOver (s : Streams) : StreamAct → Prop
  | .close => s.Over
  | .connectionState state => ends state = true → s.Over
  | .localIceCandidates =>
    s.lifecycle.signal.Fired → s.candidates.inner = true → s.GatheringOver
  | .incomingDataChannels => s.lifecycle.signal.Fired → s.incoming.inner = true → s.OpensOver
  | _ => True

end Streams

/-! ## What the polls of a producer yield -/

namespace Source

variable {α : Type} {s s' : Source α} {i : Nat}

/-- A producer without the receiver reports the end to every poll. -/
theorem polls_none (h : s.producers[i]? = some .none) (flags : List Bool) :
    polls i flags s = List.replicate flags.length .dropped := by
  induction flags with
  | nil => rfl
  | cons finish flags ih => simp [polls, pollProduce, h, ih, List.replicate_succ]

/-- A queue at its end answers a poll with `dropped`, whatever its flag. -/
theorem zipWith_ended (flags : List Bool) :
    List.zipWith (Yielded.ofPoll (α := α)) flags (List.replicate flags.length .ended) =
      List.replicate flags.length .dropped := by
  induction flags with
  | nil => rfl
  | cons finish flags ih =>
    rw [List.length_cons, List.replicate_succ, List.zipWith_cons_cons, ih]
    rfl

/-- A queued item is delivered whatever the flag. -/
theorem zipWith_item {flags : List Bool} {queue : List α} (h : flags.length = queue.length) :
    List.zipWith Yielded.ofPoll flags (queue.map .item) = queue.map .completed := by
  induction queue generalizing flags with
  | nil => simp
  | cons x queue ih =>
    cases flags with
    | nil => cases h
    | cons finish flags =>
      rw [List.map_cons, List.zipWith_cons_cons, ih (Nat.succ.inj h)]
      rfl

/-- The polls of a producer with the receiver are the receives of its queue. -/
theorem polls_some (h : s.producers[i]? = some .some) (flags : List Bool) :
    polls i flags s = List.zipWith Yielded.ofPoll flags (Chan.polls flags.length s.chan) := by
  induction flags generalizing s with
  | nil => rfl
  | cons finish flags ih =>
    obtain ⟨hlt, -⟩ := List.getElem?_eq_some_iff.1 h
    simp only [polls, pollProduce, h, List.length_cons, Chan.polls, List.zipWith_cons_cons]
    congr 1
    cases hp : s.chan.poll.1 with
    | pending | item => exact ih h
    | ended =>
      -- from here on the producer and the queue report the end alike
      obtain ⟨hqueue, hsenders⟩ := Chan.poll_ended hp
      have hpolls := Chan.polls_eq s.chan.poll.2 flags.length
      rw [Chan.poll_of_nil hqueue] at hpolls ⊢
      simp only [hqueue, hsenders, List.length_nil, Nat.zero_add, List.map_nil, List.nil_append,
        if_true] at hpolls
      rw [hpolls, zipWith_ended]
      exact polls_none (List.getElem?_set_self hlt) flags

/-- Polled as often as there are items queued, a producer with the receiver yields them. -/
theorem polls_queued (h : s.producers[i]? = some .some) {flags : List Bool}
    (hlen : flags.length = s.chan.queue.length) :
    polls i flags s = s.chan.queue.map .completed := by
  have hpolls := Chan.polls_eq s.chan 0
  rw [Nat.add_zero, List.replicate_zero, List.append_nil] at hpolls
  rw [polls_some h, hlen, hpolls, zipWith_item hlen]

/-- Polled past the queued items, a producer with the receiver reports the end exactly when its
queue has no sender. -/
theorem polls_ended_iff (h : s.producers[i]? = some .some) {flags : List Bool}
    (hlen : flags.length = s.chan.queue.length + 1) :
    polls i flags s = s.chan.queue.map .completed ++ [.dropped] ↔ s.chan.senders = 0 := by
  rw [polls_some h, hlen, Chan.polls_eq]
  obtain rfl | ⟨flags, finish, rfl⟩ := List.eq_nil_or_concat flags
  · cases hlen
  · rw [List.concat_eq_append, List.length_append] at hlen
    have hlen : flags.length = s.chan.queue.length := Nat.succ.inj hlen
    rw [List.concat_eq_append, List.zipWith_append (by simpa using hlen), zipWith_item hlen,
      List.append_cancel_left_eq]
    by_cases hs : s.chan.senders = 0
    · simp [hs, Yielded.ofPoll]
    · cases finish <;> simp [hs, Yielded.ofPoll]

/-- Every producer ends exactly when the one with the receiver, if any, has a queue without
senders. -/
theorem ends_iff : s.Ends ↔ (s.Claimed → s.chan.senders = 0) := by
  constructor
  · intro h hc
    obtain ⟨i, hi⟩ := List.mem_iff_getElem?.1 hc
    have hends := h i (.inl hi) (List.replicate (s.chan.queue.length + 1) false)
    rw [queued, if_pos hi] at hends
    exact (polls_ended_iff hi (by simp)).1 (hends (by simp))
  · intro h i hi flags hlen
    unfold queued at hlen ⊢
    obtain hi | hi := hi
    · rw [if_pos hi] at hlen ⊢
      exact (polls_ended_iff hi hlen).2 (h (List.mem_of_getElem? hi))
    · rw [if_neg (by rw [hi]; nofun)] at hlen ⊢
      rw [polls_none hi, hlen]
      rfl

/-- A poll changes no sender and gives nobody the receiver. -/
theorem pollProduce_frame {finish : Bool} {r : Yielded α}
    (h : s.pollProduce i finish = some (r, s')) :
    s'.chan.senders = s.chan.senders ∧ (s'.Claimed → s.Claimed) := by
  unfold pollProduce at h
  split at h
  · cases h; exact ⟨rfl, id⟩
  · cases h
    refine ⟨Chan.poll_senders _, fun hc => ?_⟩
    simp only [Claimed] at hc
    split at hc
    · exact (List.mem_or_eq_of_mem_set hc).resolve_right nofun
    · exact hc
  · cases h

/-- A send changes no sender and no producer. -/
theorem send_frame (x : α) :
    (s.send x).chan.senders = s.chan.senders ∧ (s.send x).producers = s.producers := by
  unfold send
  split <;> exact ⟨rfl, rfl⟩

/-- A call of the stream claims the receiver if that is still in `Inner`. -/
theorem claimed_take : s.take.Claimed ↔ s.Claimed ∨ s.inner = true := by
  unfold take Claimed
  cases s.inner <;> simp

theorem claimed_of_dropReader (h : (s.dropReader i).Claimed) : s.Claimed :=
  (List.mem_or_eq_of_mem_set h).resolve_right nofun

end Source

/-! ## Who holds a sender -/

namespace Streams

variable {s s' : Streams} {a : StreamAct}

/-- The senders of the two queues are with the handler and with the tasks that adopt a channel; the
build task has the handler. -/
structure Accounted (s : Streams) : Prop where
  candidates : s.candidates.chan.senders = (s.handler && s.candTx).toNat
  incoming : s.incoming.chan.senders = s.handler.toNat + s.adopting
  building : s.build = .building → s.handler = true

theorem accounted_start (runtime : Bool) : (start runtime).Accounted := by
  cases runtime
  · exact ⟨rfl, rfl, nofun⟩
  · exact ⟨rfl, rfl, fun _ => rfl⟩

/-- The handler takes its senders with it. -/
theorem Accounted.dropHandler (hi : s.Accounted) (hh : s.handler = true) :
    s.dropHandler.candidates.chan.senders = 0 ∧
      s.dropHandler.incoming.chan.senders = s.adopting := by
  obtain ⟨hcand, hinc, -⟩ := hi
  rw [hh] at hcand hinc
  constructor
  · unfold Streams.dropHandler
    cases hc : s.candTx <;> simp [hc] at hcand ⊢ <;> omega
  · simp [Streams.dropHandler, hinc]

/-- The streams end after the close exactly when those that the guest reads have no sender. -/
theorem Accounted.ended_iff (hi : s.Accounted) :
    s.Ended ↔ (s.lifecycle.signal.Fired → s.Over) := by
  have hcand : s.candidates.chan.senders = 0 ↔ s.GatheringOver := by
    rw [hi.candidates, GatheringOver]
    cases s.handler <;> cases s.candTx <;> simp
  have hinc : s.incoming.chan.senders = 0 ↔ s.OpensOver := by
    rw [hi.incoming, OpensOver]
    cases s.handler <;> simp
  unfold Ended Over
  rw [Source.ends_iff, Source.ends_iff, hcand, hinc]

/-- A change of the connection state fires the signal exactly when it ends the connection. -/
theorem fired_onConnectionState (l : Lifecycle) (state : RTCPeerConnectionState) :
    (l.onConnectionState state).signal.Fired ↔ ends state = true ∨ l.signal.Fired := by
  cases state <;> simp [Lifecycle.onConnectionState, ends, Signal.fire, Signal.Fired]

/-! ## What a step does -/

/-- The senders are where they were, and the build task does not start again. -/
structure Frame (s s' : Streams) : Prop where
  handler : s'.handler = s.handler
  candTx : s'.candTx = s.candTx
  adopting : s'.adopting = s.adopting
  candidates : s'.candidates.chan.senders = s.candidates.chan.senders
  incoming : s'.incoming.chan.senders = s.incoming.chan.senders
  building : s'.build = .building → s.build = .building

/-- The effect of a step on the senders, on who reads, and on the close signal. -/
inductive Effect (s : Streams) : StreamAct → Streams → Prop where
  /-- Nothing, or a reader is gone. -/
  | kept {a : StreamAct} {s' : Streams} (hf : Frame s s')
      (hcand : s'.candidates.Claimed → s.candidates.Claimed)
      (hinc : s'.incoming.Claimed → s.incoming.Claimed)
      (hsig : s'.lifecycle.signal.Fired → s.lifecycle.signal.Fired) (hC : s.ClosesOver a) :
      Effect s a s'
  /-- The close trigger fires. -/
  | fired {a : StreamAct} {s' : Streams} (hf : Frame s s')
      (hcand : s'.candidates.producers = s.candidates.producers)
      (hinc : s'.incoming.producers = s.incoming.producers) (hsig : s'.lifecycle.signal.Fired)
      (hC : s.ClosesOver a ↔ s.Over) : Effect s a s'
  | tookCandidates : Effect s .localIceCandidates { s with candidates := s.candidates.take }
  | tookIncoming : Effect s .incomingDataChannels { s with incoming := s.incoming.take }
  /-- The handler is dropped. -/
  | dropped {a : StreamAct} (build : Build) (hb : build ≠ .building)
      (hh : s.build = .building ∨ s.handler = true) (hC : s.ClosesOver a) :
      Effect s a { s.dropHandler with build }
  | gathered (hh : s.handler = true) (htx : s.candTx = true) :
      Effect s .gatheringComplete
        { s with
          candTx := false
          candidates := { s.candidates with chan := s.candidates.chan.drop } }
  | opened (hh : s.handler = true) :
      Effect s .dataChannel
        { s with
          adopting := s.adopting + 1
          incoming := { s.incoming with chan := s.incoming.chan.clone } }
  | adopted (label : Option String) (hpos : 0 < s.adopting) :
      Effect s (.adopted label) (s.adopted label)

theorem Frame.refl (s : Streams) : Frame s s := ⟨rfl, rfl, rfl, rfl, rfl, id⟩

/-- A step has its effect. -/
theorem step_effect (h : s.step a = some s') : s.Effect a s' := by
  have hkept : ∀ {s' : Streams}, Frame s s' → s'.candidates = s.candidates →
      s'.incoming = s.incoming → s'.lifecycle = s.lifecycle → s.ClosesOver a → s.Effect a s' := by
    intro s' hf hcand hinc hl hC
    exact .kept hf (by rw [hcand]; exact id) (by rw [hinc]; exact id) (by rw [hl]; exact id) hC
  cases a with
  | built ok =>
    simp only [step] at h
    split at h
    · next hb =>
      split at h
      · cases h; exact hkept ⟨rfl, rfl, rfl, rfl, rfl, nofun⟩ rfl rfl rfl trivial
      · cases h; exact .dropped .failed nofun (.inl hb) trivial
    · cases h
  | borrow | release =>
    simp only [step] at h
    split at h
    · cases h; exact hkept ⟨rfl, rfl, rfl, rfl, rfl, id⟩ rfl rfl rfl trivial
    · cases h
  | dropInner =>
    simp only [step] at h
    split at h
    · cases h; exact .kept ⟨rfl, rfl, rfl, rfl, rfl, id⟩ id id id trivial
    · cases h
  | dropHandler =>
    simp only [step] at h
    split at h
    · next hg => cases h; exact .dropped s.build (by rw [hg.2.1]; nofun) (.inr hg.1) trivial
    · cases h
  | iceCandidate init =>
    simp only [step] at h
    split at h
    · cases init with
      | none => cases h; exact hkept (.refl s) rfl rfl rfl trivial
      | some candidate =>
        obtain ⟨hsenders, hprod⟩ := s.candidates.send_frame candidate
        cases h
        split
        · exact .kept ⟨rfl, rfl, rfl, hsenders, rfl, id⟩
            (by rw [Source.Claimed, hprod]; exact id) id id trivial
        · exact hkept (.refl s) rfl rfl rfl trivial
    · cases h
  | gatheringComplete =>
    simp only [step] at h
    split at h
    · next hh =>
      cases h
      unfold gatheringComplete
      split
      · next htx => exact .gathered hh htx
      · exact hkept (.refl s) rfl rfl rfl trivial
    · cases h
  | dataChannel =>
    simp only [step] at h
    split at h
    · next hh => cases h; exact .opened hh
    · cases h
  | adopted label =>
    simp only [step] at h
    split at h
    · next hpos => cases h; exact .adopted label hpos
    · cases h
  | connectionState state =>
    simp only [step] at h
    split at h
    · cases h
      have hsig := fired_onConnectionState s.lifecycle state
      cases hends : ends state with
      | true =>
        exact .fired ⟨rfl, rfl, rfl, rfl, rfl, id⟩ rfl rfl (hsig.2 (.inl hends))
          ⟨fun hC => hC hends, fun hC _ => hC⟩
      | false =>
        refine .kept ⟨rfl, rfl, rfl, rfl, rfl, id⟩ id id (fun hf => ?_) fun he => ?_
        · exact (hsig.1 hf).resolve_left (by rw [hends]; nofun)
        · rw [hends] at he; cases he
    · cases h
  | close =>
    simp only [step] at h
    split at h
    · cases h; exact .fired ⟨rfl, rfl, rfl, rfl, rfl, id⟩ rfl rfl ⟨rfl, rfl⟩ Iff.rfl
    · cases h
  | localIceCandidates =>
    simp only [step] at h
    split at h
    · cases h; exact .tookCandidates
    · cases h
  | incomingDataChannels =>
    simp only [step] at h
    split at h
    · cases h; exact .tookIncoming
    · cases h
  | pollCandidates i finish =>
    obtain ⟨p, hp, rfl⟩ := Option.map_eq_some_iff.1 h
    obtain ⟨q, hq, rfl⟩ := Option.map_eq_some_iff.1 hp
    obtain ⟨hsenders, hclaimed⟩ := Source.pollProduce_frame hq
    exact .kept ⟨rfl, rfl, rfl, hsenders, rfl, id⟩ hclaimed id id trivial
  | pollIncoming i finish =>
    obtain ⟨p, hp, rfl⟩ := Option.map_eq_some_iff.1 h
    obtain ⟨⟨r, q⟩, hq, rfl⟩ := Option.map_eq_some_iff.1 hp
    obtain ⟨hsenders, hclaimed⟩ := Source.pollProduce_frame hq
    cases r <;> exact .kept ⟨rfl, rfl, rfl, rfl, hsenders, id⟩ id hclaimed id trivial
  | dropCandidates i =>
    cases h
    exact .kept ⟨rfl, rfl, rfl, rfl, rfl, id⟩ Source.claimed_of_dropReader id id trivial
  | dropIncoming i =>
    cases h
    exact .kept ⟨rfl, rfl, rfl, rfl, rfl, id⟩ id Source.claimed_of_dropReader id trivial

theorem Frame.gatheringOver (hf : Frame s s') : s'.GatheringOver ↔ s.GatheringOver := by
  rw [GatheringOver, hf.handler, hf.candTx, GatheringOver]

theorem Frame.opensOver (hf : Frame s s') : s'.OpensOver ↔ s.OpensOver := by
  rw [OpensOver, hf.handler, hf.adopting, OpensOver]

/-- Who reads no more than before has no sender, if nobody who read before had one. -/
theorem Frame.over (hf : Frame s s') (hcand : s'.candidates.Claimed → s.candidates.Claimed)
    (hinc : s'.incoming.Claimed → s.incoming.Claimed) (ho : s.Over) : s'.Over :=
  ⟨fun hc => hf.gatheringOver.2 (ho.1 (hcand hc)), fun hc => hf.opensOver.2 (ho.2 (hinc hc))⟩

theorem Frame.accounted (hf : Frame s s') (hi : s.Accounted) : s'.Accounted where
  candidates := by rw [hf.candidates, hi.candidates, hf.handler, hf.candTx]
  incoming := by rw [hf.incoming, hi.incoming, hf.handler, hf.adopting]
  building hb := hf.handler.trans (hi.building (hf.building hb))

/-- Every step keeps the account. -/
theorem Accounted.step (hi : s.Accounted) (h : s.step a = some s') : s'.Accounted := by
  cases step_effect h with
  | kept hf | fired hf => exact hf.accounted hi
  | tookCandidates | tookIncoming => exact ⟨hi.candidates, hi.incoming, hi.building⟩
  | dropped build hb hh =>
    obtain ⟨hcand, hinc⟩ := hi.dropHandler (hh.elim hi.building id)
    exact ⟨hcand, hinc.trans (Nat.zero_add _).symm, fun hb' => absurd hb' hb⟩
  | gathered hh htx =>
    refine ⟨?_, hi.incoming, hi.building⟩
    show s.candidates.chan.senders - 1 = (s.handler && false).toNat
    rw [hi.candidates, hh, htx]
    rfl
  | opened hh =>
    refine ⟨hi.candidates, ?_, hi.building⟩
    show s.incoming.chan.senders + 1 = s.handler.toNat + (s.adopting + 1)
    rw [hi.incoming]
    omega
  | adopted label hpos =>
    refine ⟨hi.candidates, ?_, hi.building⟩
    show (s.incoming.send { label := label.getD "" }).chan.senders - 1 =
      s.handler.toNat + (s.adopting - 1)
    rw [(s.incoming.send_frame _).1, hi.incoming]
    omega

/-- A step that meets the condition leaves no sender to a stream that is read after the close. -/
theorem over_step (hi : s.Accounted) (hq : s.lifecycle.signal.Fired → s.Over)
    (hC : s.ClosesOver a) (h : s.step a = some s') (hf : s'.lifecycle.signal.Fired) :
    s'.Over := by
  -- with the handler alive nobody reads the incoming channels after the close
  have hunread : s.lifecycle.signal.Fired → s.handler = true → ¬ s.incoming.Claimed := by
    intro hf hh hc
    have hgone := ((hq hf).2 hc).1
    rw [hh] at hgone
    cases hgone
  cases step_effect h with
  | kept hfr hcand hinc hsig => exact hfr.over hcand hinc (hq (hsig hf))
  | fired hfr hcand hinc _ hiff =>
    refine hfr.over ?_ ?_ (hiff.1 hC)
    · rw [Source.Claimed, hcand]; exact id
    · rw [Source.Claimed, hinc]; exact id
  | tookCandidates =>
    exact ⟨fun hc => (Source.claimed_take.1 hc).elim (hq hf).1 (hC hf), (hq hf).2⟩
  | tookIncoming =>
    exact ⟨(hq hf).1, fun hc => (Source.claimed_take.1 hc).elim (hq hf).2 (hC hf)⟩
  | dropped build hb hh =>
    exact ⟨fun _ => .inl rfl, fun hc => absurd hc (hunread hf (hh.elim hi.building id))⟩
  | gathered => exact ⟨fun _ => .inr rfl, (hq hf).2⟩
  | opened hh => exact ⟨(hq hf).1, fun hc => absurd hc (hunread hf hh)⟩
  | adopted label hpos =>
    refine ⟨(hq hf).1, fun hc => ?_⟩
    have hc : .some ∈ (s.incoming.send { label := label.getD "" }).producers := hc
    rw [(s.incoming.send_frame _).2] at hc
    have hnone := ((hq hf).2 hc).2
    omega

/-- A step that does not meet it leaves one. -/
theorem not_over_step (hC : ¬ s.ClosesOver a) (h : s.step a = some s') :
    s'.lifecycle.signal.Fired ∧ ¬ s'.Over := by
  cases step_effect h with
  | kept _ _ _ _ hC' | dropped _ _ _ hC' => exact absurd hC' hC
  | fired hfr hcand hinc hsig hiff =>
    refine ⟨hsig, fun ho => hC (hiff.2 ⟨fun hc => ?_, fun hc => ?_⟩)⟩
    · exact hfr.gatheringOver.1 (ho.1 (by rw [Source.Claimed, hcand]; exact hc))
    · exact hfr.opensOver.1 (ho.2 (by rw [Source.Claimed, hinc]; exact hc))
  | tookCandidates =>
    simp only [ClosesOver, Classical.not_imp] at hC
    obtain ⟨hf, hinner, hno⟩ := hC
    exact ⟨hf, fun ho => hno (ho.1 (Source.claimed_take.2 (.inr hinner)))⟩
  | tookIncoming =>
    simp only [ClosesOver, Classical.not_imp] at hC
    obtain ⟨hf, hinner, hno⟩ := hC
    exact ⟨hf, fun ho => hno (ho.2 (Source.claimed_take.2 (.inr hinner)))⟩
  | gathered | opened | adopted => exact absurd trivial hC

/-- In every state of a run in which the close trigger has fired the streams end, exactly when the
trigger fires only on streams that have no sender, and no stream with a sender is taken after it. -/
theorem streams_end_iff (runtime : Bool) {as : List StreamAct} {s : Streams}
    (h : Runs.run step (start runtime) as = some s) :
    Runs.Along step Ended (start runtime) as ↔ Runs.Meets step ClosesOver (start runtime) as := by
  refine Runs.along_iff_meets (I := fun s => s.Accounted ∧ (s.lifecycle.signal.Fired → s.Over))
    ?_ ?_ ?_ ⟨accounted_start runtime, nofun⟩ h
  · rintro s ⟨hi, hq⟩
    exact hi.ended_iff.2 hq
  · rintro s a s' ⟨hi, hq⟩ hC hstep
    exact ⟨hi.step hstep, over_step hi hq hC hstep⟩
  · rintro s a s' ⟨hi, -⟩ hC hstep hends
    obtain ⟨hf, hno⟩ := not_over_step hC hstep
    exact hno ((hi.step hstep).ended_iff.1 hends hf)

/-- A close after the gathering is complete: the candidate that is queued is delivered, and then the
stream ends. -/
def closeAfterGathering : List StreamAct :=
  [.built true, .localIceCandidates, .iceCandidate (some ⟨"candidate:1", none, none⟩),
    .gatheringComplete, .close, .pollCandidates 0 false]

theorem streams_end_iff_of_gathered :
    ∃ s, Runs.run step (start true) closeAfterGathering = some s ∧ s.candidates.Claimed ∧
      Runs.Along step Ended (start true) closeAfterGathering := by
  refine ⟨_, rfl, by decide, (@streams_end_iff true closeAfterGathering _ rfl).2 ?_⟩
  refine ⟨trivial, fun _ h => ?_⟩
  cases h
  refine ⟨nofun, fun _ h => ?_⟩
  cases h
  refine ⟨trivial, fun _ h => ?_⟩
  cases h
  refine ⟨trivial, fun _ h => ?_⟩
  cases h
  refine ⟨⟨fun _ => .inr rfl, fun hc => absurd hc (by decide)⟩, fun _ h => ?_⟩
  cases h
  exact ⟨trivial, fun _ _ => trivial⟩

/-- A close of a built connection leaves the stream of incoming channels pending. -/
theorem incoming_left_pending :
    ¬ Runs.Along step Ended (start true) [.built true, .incomingDataChannels, .close] := by
  intro h
  have hends := (h _ List.prefix_rfl _ rfl ⟨rfl, rfl⟩).2
  exact absurd (hends 0 (.inl rfl) [false] rfl) (by decide)

end Streams

end WebrtcDatachannels.Host
