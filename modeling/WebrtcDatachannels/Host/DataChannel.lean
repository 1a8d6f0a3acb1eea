import WebrtcDatachannels.Host.InboundQueue

/-!
# A Wasmtime data channel

`wasmtime-impl/src/{data_channel.rs, host.rs}`, inbound side. `Inbound` is what is behind a
channel's wiring: the pump, its queue with the budget, the wiring task and the queue's mutex.
`DataChannel` is the resource over it, with its `receive` calls, its `receive_via_stream` streams
and the connection's close signal. A step runs a task from one await to the next; the futures that
`select_biased` races are polled within it in their order. Whatever the interleaving, what was
popped followed by the queue is what arrived, in order (`Inbound.Inv`), a poll of the inbound
future has one of three outcomes (`Inbound.pollNext_cases`), and what the calls return and the
streams yield is what was popped (`Delivers`).
-/

namespace WebrtcDatachannels.Host

/-- The pump between its awaits: not spawned yet, awaiting `poll` or `channel.close()`, or gone. -/
inductive PumpTask where
  | unspawned
  | polling
  | closing
  | ended
deriving DecidableEq, Repr

/-- Who may hold the queue's mutex: a `receive` call or the producer of a stream. -/
inductive Holder where
  | call (k : Nat)
  | stream (j : Nat)
deriving DecidableEq, Repr

/-- The message in the variant that `receive` returns. Source: `to_message`. -/
def toMessage (inbound : InboundMessage) : Except WebrtcError Message :=
  if inbound.isString then
    match fromUtf8 inbound.data with
    | some text => .ok (.string text)
    | none => .error (.other ("string message is not valid UTF-8: " ++ utf8Error inbound.data))
  else .ok (.binary inbound.data)

/-- The element that a stream yields for a message; its length is cast to a `u32`. Source:
`InboundStreamMessages::poll_produce`. -/
def toStreamMessage (inbound : InboundMessage) : StreamMessage :=
  { kind := if inbound.isString then .string else .binary
    length := inbound.len % 2 ^ 32
    data := inbound.data }

/-- What the wiring resolves with when no channel is created: the reason, or `Closed` when its
sender is dropped. Source: `create_data_channel`, `wiring_channel`. -/
def wiringError : Option String → WebrtcError
  | some reason => .other reason
  | none => .closed

/-! ## Behind the wiring -/

/-- The pump, the queue, the wiring task and the mutex of one channel. The last three fields are the
history: the messages the queue accepted, what each holder popped, and what had been accepted when
the overflow was latched. -/
structure Inbound where
  budget : InboundBudget
  queue : List InboundMessage
  pump : PumpTask
  openSignal : OpenSignal
  wired : Option (Except WebrtcError Unit)
  lock : Option Holder
  accepted : List InboundMessage
  popped : List (Holder × InboundMessage)
  backlog : Option (List InboundMessage)
deriving DecidableEq

namespace Inbound

/-- A channel whose transport has not been created yet. -/
def deferred (limit : Nat) : Inbound :=
  { budget := .new limit, queue := [], pump := .unspawned, openSignal := .held, wired := none,
    lock := none, accepted := [], popped := [], backlog := none }

/-- The pump handles what its poll returned. Source: `spawn_channel_pump`. -/
def event (i : Inbound) : Option DataChannelEvent → Inbound
  | some .onOpen => { i with openSignal := if i.openSignal = .held then .sent else i.openSignal }
  | some (.onMessage m) =>
    let r := i.budget.reserve m.len
    if r.1 then { i with budget := r.2, queue := i.queue ++ [m], accepted := i.accepted ++ [m] }
    else { i with budget := r.2, pump := .closing, backlog := some (i.backlog.getD i.accepted) }
  | some .other => i
  | some .onClose | none =>
    { i with pump := .ended, openSignal := if i.openSignal = .held then .dropped else i.openSignal }

/-- The wiring task resolves once the open signal does. Source: `spawn_channel_wiring`. -/
def wire (i : Inbound) : Option Inbound :=
  if i.wired = none then
    match i.openSignal with
    | .held => none
    | .sent => some { i with wired := some (.ok ()) }
    | .dropped => some { i with wired := some (.error .closed) }
  else none

/-- A poll of `lock().await` and, with the mutex, of the queue's `next`: pending, a message, or the
end of the queue. Source: `InboundQueue::next`. -/
def pollQueue (i : Inbound) (h : Holder) : Option (Option InboundMessage) × Inbound :=
  if i.lock = none ∨ i.lock = some h then
    match i.queue with
    | m :: rest =>
      (some (some m),
        { i with
          queue := rest
          budget := i.budget.release m.len
          lock := none
          popped := i.popped ++ [(h, m)] })
    | [] => if i.pump = .ended then (some none, { i with lock := none })
      else (none, { i with lock := some h })
  else (none, i)

/-- A poll of the future that `receive` races: the wiring, then the queue. Source:
`next_inbound`. -/
def pollNext (i : Inbound) (h : Holder) : Option (Except WebrtcError InboundMessage) × Inbound :=
  match i.wired with
  | none => (none, i)
  | some (.error e) => (some (.error e), i)
  | some (.ok ()) =>
    match i.pollQueue h with
    | (none, i') => (none, i')
    | (some (some m), i') => (some (.ok m), i')
    | (some none, i') =>
      (some (.error (if i'.budget.overflowed then .receiveBufferOverflow else .closed)), i')

/-- A poll of the future that a stream's producer races: the same, with every error the end. Source:
`InboundStreamMessages::poll_produce`. -/
def pollStream (i : Inbound) (h : Holder) : Option (Option InboundMessage) × Inbound :=
  match i.wired with
  | none => (none, i)
  | some (.error _) => (some none, i)
  | some (.ok ()) => i.pollQueue h

/-- A dropped future gives the mutex back. -/
def dropFuture (i : Inbound) (h : Holder) : Inbound :=
  if i.lock = some h then { i with lock := none } else i

end Inbound

/-! ## The resource -/

/-- How a `receive` call ended, and whether the messages had been claimed and the overflow latched
by then. -/
structure Completion where
  outcome : Except WebrtcError InboundMessage
  claimed : Bool
  overflowed : Bool
deriving DecidableEq

/-- What the guest gets. -/
def Completion.result (c : Completion) : Except WebrtcError Message := c.outcome.bind toMessage

/-- A `receive` call: made, racing its futures, returned, or cancelled by the guest. -/
inductive ReceiveCall where
  | start
  | racing
  | done (c : Completion)
  | cancelled
deriving DecidableEq

/-- The call has neither returned nor been cancelled. -/
def ReceiveCall.Live : ReceiveCall → Prop
  | .start | .racing => True
  | .done _ | .cancelled => False

/-- The producer of a returned stream: it may be polled, or the stream is over. -/
inductive StreamProducer where
  | live
  | ended
deriving DecidableEq, Repr

/-- What `poll_produce` returns: pending, cancelled, an element, or the end. -/
inductive Produced where
  | pending
  | cancelled
  | completed (message : StreamMessage)
  | dropped
deriving DecidableEq, Repr

/-- What a poll hands to the guest: the end of a `receive` call, or an element of a stream. -/
inductive Delivery where
  | returned (c : Completion)
  | yielded (message : StreamMessage)
deriving DecidableEq

/-- What a poll that leaves a call so hands over. -/
def ReceiveCall.delivers : Option ReceiveCall → List Delivery
  | some (.done c) => [.returned c]
  | _ => []

/-- What a poll of a producer hands over. -/
def Produced.delivers : Produced → List Delivery
  | .completed message => [.yielded message]
  | .pending | .cancelled | .dropped => []

/-- The `data-channel` resource. `startedTx` is whether the stream-started sender is still there,
`claims` what the `receive_via_stream` calls returned, and `delivered` the history of what the polls
handed over. Source: `DataChannel`. -/
structure DataChannel where
  inbound : Inbound
  startedTx : Bool
  streamReceiving : Bool
  connClosed : Bool
  calls : List ReceiveCall
  streams : List StreamProducer
  claims : List (Except WebrtcError Unit)
  delivered : List Delivery
deriving DecidableEq

/-- The steps: the channel is created behind its wiring, or fails to be; the pump polls, or its
`channel.close()` returns; the wiring resolves; the connection closes; the guest calls, polls and
cancels `receive`, and claims, polls and drops a stream. -/
inductive DataChannelAct where
  | create
  | fail (reason : Option String)
  | event (e : Option DataChannelEvent)
  | closed
  | wire
  | fire
  | receive
  | poll (k : Nat)
  | cancel (k : Nat)
  | receiveViaStream
  | produce (j : Nat) (finish : Bool)
  | dropStream (j : Nat)
deriving DecidableEq

namespace DataChannel

/-- `DataChannel::deferred`. -/
def deferred (limit : Nat) : DataChannel :=
  { inbound := .deferred limit, startedTx := true, streamReceiving := false, connClosed := false,
    calls := [], streams := [], claims := [], delivered := [] }

/-- The first caller takes the sender, sets the flag and wakes the pending `receive`s. Source:
`DataChannel::begin_stream_receiving`. -/
def beginStreamReceiving (d : DataChannel) : Bool × DataChannel :=
  if d.startedTx then (true, { d with startedTx := false, streamReceiving := true })
  else (false, d)

/-- Source: `HostDataChannelWithStore::receive_via_stream`. -/
def receiveViaStream (d : DataChannel) : DataChannel :=
  let r := d.beginStreamReceiving
  if r.1 then { r.2 with streams := r.2.streams ++ [.live], claims := r.2.claims ++ [.ok ()] }
  else { r.2 with claims := r.2.claims ++ [.error .receivingViaStream] }

/-- A poll of the biased race in `receive`: the inbound message, then the stream's start, then the
close signal. A losing future is dropped. Source: `HostDataChannelWithStore::receive`. -/
def race (d : DataChannel) (k : Nat) : Option (Except WebrtcError InboundMessage) × Inbound :=
  match d.inbound.pollNext (.call k) with
  | (some outcome, i) => (some outcome, i)
  | (none, i) =>
    if !d.startedTx then (some (.error .receivingViaStream), i.dropFuture (.call k))
    else if d.connClosed then (some (.error .closed), i.dropFuture (.call k))
    else (none, i)

/-- A call ends with an outcome. -/
def completion (d : DataChannel) (outcome : Except WebrtcError InboundMessage) : Completion :=
  { outcome, claimed := d.streamReceiving, overflowed := d.inbound.budget.overflowed }

/-- A poll of call `k`: its first one checks the flag. Source:
`HostDataChannelWithStore::receive`. -/
def pollReceive (d : DataChannel) (k : Nat) : Option DataChannel :=
  let racing :=
    match d.race k with
    | (some outcome, i) =>
      { d with inbound := i, calls := d.calls.set k (.done (d.completion outcome)) }
    | (none, i) => { d with inbound := i, calls := d.calls.set k .racing }
  match d.calls[k]? with
  | some .start =>
    if d.streamReceiving then
      some { d with calls := d.calls.set k (.done (d.completion (.error .receivingViaStream))) }
    else some racing
  | some .racing => some racing
  | _ => none

/-- A poll of a stream's producer. Source: `InboundStreamMessages::poll_produce`. -/
def pollProduce (d : DataChannel) (j : Nat) (finish : Bool) : Produced × DataChannel :=
  match d.inbound.pollStream (.stream j) with
  | (some (some m), i) => (.completed (toStreamMessage m), { d with inbound := i })
  | (some none, i) => (.dropped, { d with inbound := i, streams := d.streams.set j .ended })
  | (none, i) =>
    if d.connClosed then
      (.dropped,
        { d with inbound := i.dropFuture (.stream j), streams := d.streams.set j .ended })
    else (if finish then .cancelled else .pending, { d with inbound := i })

/-- One step. -/
def step (d : DataChannel) : DataChannelAct → Option DataChannel
  | .create =>
    if d.inbound.pump = .unspawned ∧ d.inbound.wired = none then
      some { d with inbound := { d.inbound with pump := .polling } }
    else none
  | .fail reason =>
    if d.inbound.pump = .unspawned ∧ d.inbound.wired = none then
      some { d with inbound := { d.inbound with wired := some (.error (wiringError reason)) } }
    else none
  | .event e =>
    if d.inbound.pump = .polling then some { d with inbound := d.inbound.event e } else none
  | .closed =>
    if d.inbound.pump = .closing then
      some { d with inbound := { d.inbound with pump := .polling } }
    else none
  | .wire => d.inbound.wire.map fun i => { d with inbound := i }
  | .fire => some { d with connClosed := true }
  | .receive => some { d with calls := d.calls ++ [.start] }
  | .poll k => (d.pollReceive k).map fun d' =>
    { d' with delivered := d'.delivered ++ ReceiveCall.delivers d'.calls[k]? }
  | .cancel k =>
    match d.calls[k]? with
    | some .start | some .racing =>
      some
        { d with
          inbound := d.inbound.dropFuture (.call k)
          calls := d.calls.set k .cancelled }
    | _ => none
  | .receiveViaStream => some d.receiveViaStream
  | .produce j finish =>
    if d.streams[j]? = some .live then
      let r := d.pollProduce j finish
      some { r.2 with delivered := r.2.delivered ++ r.1.delivers }
    else none
  | .dropStream j =>
    if d.streams[j]? = some .live then
      some
        { d with
          inbound := d.inbound.dropFuture (.stream j)
          streams := d.streams.set j .ended }
    else none

end DataChannel

/-! ## The order of the messages -/

namespace Inbound

variable {i i' : Inbound} {h : Holder}

/-- What was popped followed by the queue is what arrived; nothing arrives after the overflow; and
the wiring fails with neither of the errors that say how messages are received. -/
structure Inv (i : Inbound) : Prop where
  fifo : i.popped.map Prod.snd ++ i.queue = i.accepted
  latched : i.backlog = if i.budget.overflowed then some i.accepted else none
  wiredError : ∀ e, i.wired = some (.error e) → e ≠ .receivingViaStream ∧ e ≠ .receiveBufferOverflow

/-- The same messages in the same places, behind the same wiring. -/
structure Same (i i' : Inbound) : Prop where
  queue : i'.queue = i.queue
  popped : i'.popped = i.popped
  accepted : i'.accepted = i.accepted
  backlog : i'.backlog = i.backlog
  overflowed : i'.budget.overflowed = i.budget.overflowed
  wired : i'.wired = i.wired

theorem Same.refl (i : Inbound) : i.Same i := ⟨rfl, rfl, rfl, rfl, rfl, rfl⟩

theorem Same.inv (hs : i.Same i') (hi : i.Inv) : i'.Inv :=
  ⟨by rw [hs.popped, hs.queue, hs.accepted]; exact hi.fifo,
    by rw [hs.backlog, hs.overflowed, hs.accepted]; exact hi.latched,
    by rw [hs.wired]; exact hi.wiredError⟩

theorem same_dropFuture (i : Inbound) (h : Holder) : i.Same (i.dropFuture h) := by
  unfold dropFuture
  split <;> exact ⟨rfl, rfl, rfl, rfl, rfl, rfl⟩

/-- The mutex is given back, or another has it. -/
theorem lock_dropFuture (i : Inbound) (h : Holder) :
    (i.dropFuture h).lock = if i.lock = some h then none else i.lock := by
  unfold dropFuture
  split <;> rfl

theorem inv_deferred (limit : Nat) : (deferred limit).Inv := ⟨rfl, rfl, nofun⟩

/-- The pump's events keep the order: a refused message latches the overflow with what had arrived,
and after that none is accepted. -/
theorem Inv.event (hi : i.Inv) (e : Option DataChannelEvent) : (i.event e).Inv := by
  obtain ⟨hf, hl, hw⟩ := hi
  cases e with
  | none => exact ⟨hf, hl, hw⟩
  | some e =>
    cases e with
    | onOpen | onClose | other => exact ⟨hf, hl, hw⟩
    | onMessage m =>
      simp only [Inbound.event]
      obtain ⟨hr, ho, ho'⟩ | ⟨hr, ho⟩ := i.budget.reserve_cases m.len
      · rw [if_pos hr]
        refine ⟨?_, ?_, hw⟩
        · rw [← hf, List.append_assoc]
        · rw [hl, ho, ho']
          rfl
      · rw [hr, if_neg Bool.false_ne_true]
        refine ⟨hf, ?_, hw⟩
        rw [ho, hl]
        split <;> rfl

/-- The wiring task fails with `Closed` only. -/
theorem Inv.wire (hi : i.Inv) (hw : i.wire = some i') : i'.Inv := by
  unfold Inbound.wire at hw
  split at hw
  · split at hw <;> cases hw
    · exact ⟨hi.fifo, hi.latched, nofun⟩
    · exact ⟨hi.fifo, hi.latched, fun e he => by cases he; exact ⟨nofun, nofun⟩⟩
  · cases hw

/-- A step of the transport's side: it keeps the order, pops nothing and leaves the mutex and a
resolved wiring alone, and once the overflow is latched it adds nothing either. -/
structure Moves (i i' : Inbound) : Prop where
  inv : i.Inv → i'.Inv
  popped : i'.popped = i.popped
  lock : i'.lock = i.lock
  wired : i.wired = some (.ok ()) → i'.wired = some (.ok ())
  latched : ∀ b, i.backlog = some b → i.Inv → i'.backlog = some b ∧ i'.queue = i.queue

theorem moves_event (i : Inbound) (e : Option DataChannelEvent) : i.Moves (i.event e) := by
  have hsame : (i.event e).popped = i.popped ∧ (i.event e).lock = i.lock ∧
      (i.event e).wired = i.wired := by
    cases e with
    | none => exact ⟨rfl, rfl, rfl⟩
    | some e =>
      cases e with
      | onOpen | onClose | other => exact ⟨rfl, rfl, rfl⟩
      | onMessage m => simp only [Inbound.event]; split <;> exact ⟨rfl, rfl, rfl⟩
  refine ⟨fun hi => hi.event e, hsame.1, hsame.2.1, fun hw => hsame.2.2.trans hw, ?_⟩
  · intro b hb hi
    have ho : i.budget.overflowed = true := by
      by_contra ho
      rw [hi.latched, if_neg ho] at hb
      cases hb
    cases e with
    | none => exact ⟨hb, rfl⟩
    | some e =>
      cases e with
      | onOpen | onClose | other => exact ⟨hb, rfl⟩
      | onMessage m =>
        have hr : i.budget.reserve m.len = (false, i.budget) := by
          rw [InboundBudget.reserve, if_pos ho]
        simp only [Inbound.event, hr, hb]
        exact ⟨rfl, rfl⟩

theorem moves_wire (hw : i.wire = some i') : i.Moves i' := by
  have hi := fun hi : i.Inv => hi.wire hw
  unfold Inbound.wire at hw
  split at hw
  · next hnone =>
    have hwired : ∀ {P : Prop}, i.wired = some (.ok ()) → P := fun h => by
      rw [hnone] at h
      cases h
    split at hw <;> cases hw
    · exact ⟨hi, rfl, rfl, hwired, fun _ hb _ => ⟨hb, rfl⟩⟩
    · exact ⟨hi, rfl, rfl, hwired, fun _ hb _ => ⟨hb, rfl⟩⟩
  · cases hw

/-- A holder's poll of the inbound future would be ready. -/
def Ready (i : Inbound) (h : Holder) : Prop :=
  match i.wired with
  | none => False
  | some (.error _) => True
  | some (.ok ()) => (i.lock = none ∨ i.lock = some h) ∧ (i.queue ≠ [] ∨ i.pump = .ended)

/-- The outcomes of a poll of the inbound future: pending, an error that takes nothing, or the
oldest message. -/
inductive Polled (i : Inbound) (h : Holder) :
    Option (Except WebrtcError InboundMessage) → Inbound → Prop where
  | pending {i' : Inbound} (hs : i.Same i') (hr : ¬ i.Ready h)
      (hl : i'.lock = i.lock ∨ i.wired = some (.ok ()) ∧ i'.lock = some h) : Polled i h none i'
  | failed {i' : Inbound} {e : WebrtcError} (hs : i.Same i') (hr : i.Ready h)
      (he : i.wired = some (.error e) ∨ i.wired = some (.ok ()) ∧ i.queue = [] ∧
        e = if i.budget.overflowed then .receiveBufferOverflow else .closed)
      (hl : i.wired = some (.error e) ∧ i'.lock = i.lock ∨ i'.lock = none) :
      Polled i h (some (.error e)) i'
  | message {i' : Inbound} {m : InboundMessage} (hr : i.Ready h) (hk : i.wired = some (.ok ()))
      (hq : i.queue = m :: i'.queue) (hp : i'.popped = i.popped ++ [(h, m)])
      (ha : i'.accepted = i.accepted)
      (hb : i'.backlog = i.backlog) (ho : i'.budget.overflowed = i.budget.overflowed)
      (hw : i'.wired = i.wired) (hl : i'.lock = none) : Polled i h (some (.ok m)) i'

/-- A poll of the inbound future has one of its outcomes. -/
theorem pollNext_cases (i : Inbound) (h : Holder) :
    i.Polled h (i.pollNext h).1 (i.pollNext h).2 := by
  unfold pollNext
  split
  · next hw => exact .pending (.refl i) (by simp [Ready, hw]) (.inl rfl)
  · next e hw => exact .failed (.refl i) (by simp [Ready, hw]) (.inl hw) (.inl ⟨hw, rfl⟩)
  · next hw =>
    by_cases hl : i.lock = none ∨ i.lock = some h
    · cases hq : i.queue with
      | nil =>
        by_cases hp : i.pump = .ended
        · have hpoll : i.pollQueue h = (some none, { i with lock := none }) := by
            simp only [pollQueue, if_pos hl, hq, if_pos hp]
          rw [hpoll]
          exact .failed ⟨rfl, rfl, rfl, rfl, rfl, rfl⟩ (by simp [Ready, hw, hl, hp])
            (.inr ⟨hw, hq, rfl⟩) (.inr rfl)
        · have hpoll : i.pollQueue h = (none, { i with lock := some h }) := by
            simp only [pollQueue, if_pos hl, hq, if_neg hp]
          rw [hpoll]
          exact .pending ⟨rfl, rfl, rfl, rfl, rfl, rfl⟩ (by simp [Ready, hw, hq, hp])
            (.inr ⟨hw, rfl⟩)
      | cons m rest =>
        have hpoll : i.pollQueue h = (some (some m),
            { i with
              queue := rest
              budget := i.budget.release m.len
              lock := none
              popped := i.popped ++ [(h, m)] }) := by
          simp only [pollQueue, if_pos hl, hq]
        rw [hpoll]
        exact .message (by simp [Ready, hw, hl, hq]) hw hq rfl rfl rfl rfl rfl rfl
    · have hpoll : i.pollQueue h = (none, i) := by
        simp only [pollQueue, if_neg hl]
      rw [hpoll]
      exact .pending (.refl i) (by simp [Ready, hw, hl]) (.inl rfl)

/-- A stream's producer polls the same future and takes every error for the end. -/
theorem pollStream_eq (i : Inbound) (h : Holder) :
    i.pollStream h = ((i.pollNext h).1.map Except.toOption, (i.pollNext h).2) := by
  unfold pollStream pollNext
  split
  · rfl
  · rfl
  · split <;> simp_all [Except.toOption]

/-- A poll leaves the wiring alone. -/
theorem Polled.wired {r : Option (Except WebrtcError InboundMessage)} (hp : i.Polled h r i') :
    i'.wired = i.wired := by
  cases hp with
  | pending hs | failed hs => exact hs.wired
  | message _ _ _ _ _ _ _ hw => exact hw

/-- A poll keeps the order. -/
theorem Polled.inv {r : Option (Except WebrtcError InboundMessage)} (hp : i.Polled h r i')
    (hi : i.Inv) : i'.Inv := by
  cases hp with
  | pending hs | failed hs => exact hs.inv hi
  | message hr hk hq hp ha hb ho hw =>
    refine ⟨?_, by rw [hb, ho, ha]; exact hi.latched, by rw [hw]; exact hi.wiredError⟩
    rw [ha, ← hi.fifo, hp, hq]
    simp

end Inbound

/-! ## What a step does -/

namespace DataChannel

open Inbound

variable {d d' : DataChannel} {a : DataChannelAct} {k : Nat}

/-- The race of a call is run: it is past its first check, or passes it. -/
def Races (d : DataChannel) (k : Nat) : Prop :=
  d.calls[k]? = some .racing ∨ d.calls[k]? = some .start ∧ d.streamReceiving = false

/-- How a polled call comes to its outcome: its first check sees the claim, the inbound future is
ready, or it is not and the stream's start or else the close signal is. -/
inductive Verdict (d : DataChannel) (k : Nat) :
    Except WebrtcError InboundMessage → Inbound → Prop where
  | refused (hk : d.calls[k]? = some .start) (hs : d.streamReceiving = true) :
      Verdict d k (.error .receivingViaStream) d.inbound
  | ready {outcome : Except WebrtcError InboundMessage} {i : Inbound} (hk : d.Races k)
      (hp : d.inbound.Polled (.call k) (some outcome) i) : Verdict d k outcome i
  | woken {i : Inbound} (hk : d.Races k) (hp : d.inbound.Polled (.call k) none i)
      (hs : d.startedTx = false) : Verdict d k (.error .receivingViaStream) (i.dropFuture (.call k))
  | closed {i : Inbound} (hk : d.Races k) (hp : d.inbound.Polled (.call k) none i)
      (hs : d.startedTx = true) (hc : d.connClosed = true) :
      Verdict d k (.error .closed) (i.dropFuture (.call k))

/-- What a producer hands over when its poll of the inbound future gives `r`. -/
def yields : Option (Except WebrtcError InboundMessage) → List Delivery
  | some (.ok m) => [.yielded (toStreamMessage m)]
  | some (.error _) | none => []

/-- What a step does: the transport's side moves and keeps the order, the connection closes, a call
is made, parked, returned or cancelled, a claim is granted or refused, or a stream polls or ends. -/
inductive Effect (d : DataChannel) : DataChannelAct → DataChannel → Prop where
  | transport {a : DataChannelAct} {i : Inbound} (hi : d.inbound.Moves i) (ha : ∀ k, a ≠ .poll k) :
      Effect d a { d with inbound := i }
  | fired : Effect d .fire { d with connClosed := true }
  | called : Effect d .receive { d with calls := d.calls ++ [.start] }
  | parked {k : Nat} {i : Inbound} (hk : d.Races k) (hp : d.inbound.Polled (.call k) none i)
      (hs : d.startedTx = true) (hc : d.connClosed = false) :
      Effect d (.poll k) { d with inbound := i, calls := d.calls.set k .racing }
  | returned {k : Nat} {i : Inbound} {outcome : Except WebrtcError InboundMessage}
      (hv : d.Verdict k outcome i) :
      Effect d (.poll k)
        { d with
          inbound := i
          calls := d.calls.set k (.done (d.completion outcome))
          delivered := d.delivered ++ [.returned (d.completion outcome)] }
  | cancelled {k : Nat} :
      Effect d (.cancel k)
        { d with
          inbound := d.inbound.dropFuture (.call k)
          calls := d.calls.set k .cancelled }
  | claimed (hs : d.startedTx = true) :
      Effect d .receiveViaStream
        { d with
          startedTx := false
          streamReceiving := true
          streams := d.streams ++ [.live]
          claims := d.claims ++ [.ok ()] }
  | rejected (hs : d.startedTx = false) :
      Effect d .receiveViaStream { d with claims := d.claims ++ [.error .receivingViaStream] }
  | produced {j : Nat} {finish : Bool} {r : Option (Except WebrtcError InboundMessage)}
      {i i' : Inbound} {streams : List StreamProducer} (hj : d.streams[j]? = some .live)
      (hp : d.inbound.Polled (.stream j) r i) (hi : i.Same i')
      (hl : i'.lock = i.lock ∨ i'.lock = none) (hs : streams.length = d.streams.length) :
      Effect d (.produce j finish)
        { d with inbound := i', streams := streams, delivered := d.delivered ++ yields r }
  | dropped {j : Nat} (hj : d.streams[j]? = some .live) :
      Effect d (.dropStream j)
        { d with
          inbound := d.inbound.dropFuture (.stream j)
          streams := d.streams.set j .ended }

/-- The race of a call parks it or gives it a verdict. -/
theorem race_cases (hk : d.Races k) :
    ((d.race k).1 = none ∧ d.inbound.Polled (.call k) none (d.race k).2 ∧ d.startedTx = true ∧
      d.connClosed = false) ∨
    ∃ outcome, (d.race k).1 = some outcome ∧ d.Verdict k outcome (d.race k).2 := by
  have hp := d.inbound.pollNext_cases (.call k)
  rcases hpoll : d.inbound.pollNext (.call k) with ⟨r, i⟩
  rw [hpoll] at hp
  simp only [race, hpoll]
  cases r with
  | some outcome => exact .inr ⟨outcome, rfl, .ready hk hp⟩
  | none =>
    cases hs : d.startedTx with
    | false => exact .inr ⟨_, rfl, .woken hk hp hs⟩
    | true =>
      cases hc : d.connClosed with
      | true => exact .inr ⟨_, rfl, .closed hk hp hs hc⟩
      | false => exact .inl ⟨rfl, hp, rfl, rfl⟩

/-- A call that races is there. -/
theorem Races.lt (h : d.Races k) : k < d.calls.length := by
  obtain hk | ⟨hk, -⟩ := h <;> exact (List.getElem?_eq_some_iff.1 hk).1

/-- A poll of a call ends the call with a verdict, or parks it. -/
inductive Received (d : DataChannel) (k : Nat) : DataChannel → Prop where
  | parked {i : Inbound} (hk : d.Races k) (hp : d.inbound.Polled (.call k) none i)
      (hs : d.startedTx = true) (hc : d.connClosed = false) :
      Received d k { d with inbound := i, calls := d.calls.set k .racing }
  | returned {i : Inbound} {outcome : Except WebrtcError InboundMessage}
      (hv : d.Verdict k outcome i) (hk : k < d.calls.length) :
      Received d k
        { d with inbound := i, calls := d.calls.set k (.done (d.completion outcome)) }

/-- A poll of a call that races. -/
theorem received_race (hk : d.Races k) :
    d.Received k
      (match d.race k with
      | (some outcome, i) =>
        { d with inbound := i, calls := d.calls.set k (.done (d.completion outcome)) }
      | (none, i) => { d with inbound := i, calls := d.calls.set k .racing }) := by
  obtain ⟨hr, hp, hs, hc⟩ | ⟨outcome, hr, hv⟩ := d.race_cases hk
  · split
    · next o i he => rw [he] at hr; cases hr
    · next i he => rw [he] at hp; exact .parked hk hp hs hc
  · split
    · next o i he =>
      rw [he] at hr hv
      cases hr
      exact .returned hv hk.lt
    · next i he => rw [he] at hr; cases hr

/-- The outcomes of a poll of a call. -/
theorem received (h : d.pollReceive k = some d') : d.Received k d' := by
  simp only [pollReceive] at h
  split at h
  · next hk =>
    split at h
    · next hs =>
      cases h
      exact .returned (.refused hk hs) (List.getElem?_eq_some_iff.1 hk).1
    · next hs => cases h; exact received_race (.inr ⟨hk, eq_false_of_ne_true hs⟩)
  · next hk => cases h; exact received_race (.inl hk)
  · cases h

/-- A poll of the stream has the effect of what the queue answers. -/
theorem effect_produce {j : Nat} (hj : d.streams[j]? = some .live) (finish : Bool) :
    d.Effect (.produce j finish)
      { (d.pollProduce j finish).2 with
        delivered :=
          (d.pollProduce j finish).2.delivered ++ (d.pollProduce j finish).1.delivers } := by
  have hp := d.inbound.pollNext_cases (.stream j)
  rcases hpoll : d.inbound.pollNext (.stream j) with ⟨r, i⟩
  rw [hpoll] at hp
  simp only [pollProduce, pollStream_eq, hpoll]
  match r with
  | none =>
    simp only [Option.map_none]
    split
    · refine .produced hj hp (same_dropFuture _ _) ?_ (List.length_set ..)
      rw [lock_dropFuture]
      split
      · exact .inr rfl
      · exact .inl rfl
    · split <;> exact .produced hj hp (.refl _) (.inl rfl) rfl
  | some (.ok m) => exact .produced hj hp (.refl _) (.inl rfl) rfl
  | some (.error e) => exact .produced hj hp (.refl _) (.inl rfl) (List.length_set ..)

/-- A step has its effect. -/
theorem step_effect (h : d.step a = some d') : d.Effect a d' := by
  cases a with
  | create | closed =>
    simp only [step] at h
    split at h <;> cases h
    exact .transport ⟨fun hi => ⟨hi.fifo, hi.latched, hi.wiredError⟩, rfl, rfl, id,
      fun _ hb _ => ⟨hb, rfl⟩⟩ nofun
  | fail reason =>
    simp only [step] at h
    split at h
    · next hp =>
      cases h
      refine .transport ⟨fun hi => ⟨hi.fifo, hi.latched, ?_⟩, rfl, rfl, ?_, fun _ hb _ => ⟨hb, rfl⟩⟩
        nofun
      · intro e he
        cases he
        cases reason <;> exact ⟨nofun, nofun⟩
      · intro hw
        cases hp.2.symm.trans hw
    · cases h
  | event e =>
    simp only [step] at h
    split at h <;> cases h
    exact .transport (moves_event _ e) nofun
  | wire =>
    obtain ⟨i, hw, rfl⟩ := Option.map_eq_some_iff.1 h
    exact .transport (moves_wire hw) nofun
  | fire => cases h; exact .fired
  | receive => cases h; exact .called
  | poll k =>
    obtain ⟨d', hd, rfl⟩ := Option.map_eq_some_iff.1 h
    cases received hd with
    | parked hk hp hs hc =>
      simp only [List.getElem?_set_self hk.lt, ReceiveCall.delivers, List.append_nil]
      exact .parked hk hp hs hc
    | returned hv hk =>
      simp only [List.getElem?_set_self hk]
      exact .returned hv
  | cancel k =>
    simp only [step] at h
    split at h <;> cases h <;> exact .cancelled
  | receiveViaStream =>
    by_cases hs : d.startedTx = true
    · simp only [step, receiveViaStream, beginStreamReceiving, if_pos hs, if_true] at h
      cases h
      exact .claimed hs
    · simp only [step, receiveViaStream, beginStreamReceiving, if_neg hs, Bool.false_eq_true,
        if_false] at h
      cases h
      exact .rejected (eq_false_of_ne_true hs)
  | produce j finish =>
    simp only [step] at h
    split at h
    · next hj =>
      cases h
      exact effect_produce hj finish
    · cases h
  | dropStream j =>
    simp only [step] at h
    split at h
    · next hj => cases h; exact .dropped hj
    · cases h

/-- The polls have handed over what was popped, in order: each message in the result of the call, or
as the element of the stream, that popped it. A call that failed took nothing. -/
inductive Delivers : List (Holder × InboundMessage) → List Delivery → Prop where
  | nil : Delivers [] []
  | failed {popped : List (Holder × InboundMessage)} {delivered : List Delivery} {c : Completion}
      {e : WebrtcError} (h : Delivers popped delivered) (hc : c.outcome = .error e) :
      Delivers popped (delivered ++ [.returned c])
  | call {popped : List (Holder × InboundMessage)} {delivered : List Delivery} {c : Completion}
      {k : Nat} {m : InboundMessage} (h : Delivers popped delivered) (hc : c.outcome = .ok m) :
      Delivers (popped ++ [(.call k, m)]) (delivered ++ [.returned c])
  | stream {popped : List (Holder × InboundMessage)} {delivered : List Delivery} {j : Nat}
      {m : InboundMessage} (h : Delivers popped delivered) :
      Delivers (popped ++ [(.stream j, m)]) (delivered ++ [.yielded (toStreamMessage m)])

theorem Delivers.congr {popped popped' : List (Holder × InboundMessage)}
    {delivered : List Delivery} (h : Delivers popped delivered) (hp : popped' = popped) :
    Delivers popped' delivered := hp ▸ h

/-- A step hands over what it pops. -/
theorem Effect.delivers (he : d.Effect a d') (h : Delivers d.inbound.popped d.delivered) :
    Delivers d'.inbound.popped d'.delivered := by
  cases he with
  | transport hm => exact h.congr hm.popped
  | parked _ hp =>
    cases hp with
    | pending hs => exact h.congr hs.popped
  | returned hv =>
    cases hv with
    | refused => exact h.failed rfl
    | ready hk hp =>
      cases hp with
      | failed hs => exact (h.congr hs.popped).failed rfl
      | message _ _ _ hp => exact (h.call rfl).congr hp
    | woken _ hp | closed _ hp =>
      cases hp with
      | pending hs =>
        exact (h.congr ((same_dropFuture _ _).popped.trans hs.popped)).failed rfl
  | produced _ hp hs =>
    cases hp with
    | pending hs' | failed hs' =>
      rw [yields, List.append_nil]
      exact h.congr (hs.popped.trans hs'.popped)
    | message _ _ _ hp => exact h.stream.congr (hs.popped.trans hp)
  | cancelled | dropped => exact h.congr (same_dropFuture _ _).popped
  | fired | called | claimed | rejected => exact h

/-- A message that a `receive` call took. -/
def handed? : Holder × InboundMessage → Option InboundMessage
  | (.call _, m) => some m
  | (.stream _, _) => none

/-- A message that a stream took. -/
def streamed? : Holder × InboundMessage → Option InboundMessage
  | (.call _, _) => none
  | (.stream _, m) => some m

/-- The messages that `receive` calls took, in order. -/
def handed (d : DataChannel) : List InboundMessage := d.inbound.popped.filterMap handed?

/-- The messages that streams took, in order. -/
def streamed (d : DataChannel) : List InboundMessage := d.inbound.popped.filterMap streamed?

/-- The sender of the stream's start is there until the flag is set. -/
def TxUntilClaimed (d : DataChannel) : Prop := d.startedTx = !d.streamReceiving

theorem Effect.tx (he : d.Effect a d') (h : d.TxUntilClaimed) : d'.TxUntilClaimed := by
  cases he with
  | claimed => rfl
  | _ => exact h

/-- The order of the messages is kept. -/
theorem Effect.inv (he : d.Effect a d') (hi : d.inbound.Inv) : d'.inbound.Inv := by
  cases he with
  | transport hm => exact hm.inv hi
  | parked _ hp => exact hp.inv hi
  | returned hv =>
    cases hv with
    | refused => exact hi
    | ready _ hp => exact hp.inv hi
    | woken _ hp | closed _ hp => exact (same_dropFuture _ _).inv (hp.inv hi)
  | produced _ hp hs => exact hs.inv (hp.inv hi)
  | cancelled | dropped => exact (same_dropFuture _ _).inv hi
  | fired | called | claimed | rejected => exact hi

/-- A completion was there before, or is the verdict of the polled call. -/
theorem Effect.done (he : d.Effect a d') {c : Completion} (hc : .done c ∈ d'.calls) :
    .done c ∈ d.calls ∨ ∃ k outcome i, a = .poll k ∧ d.Verdict k outcome i ∧ d'.inbound = i ∧
      c = d.completion outcome := by
  have hset : ∀ {k : Nat} {call : ReceiveCall}, .done c ∈ d.calls.set k call → call ≠ .done c →
      .done c ∈ d.calls := fun hm hne =>
    (List.mem_or_eq_of_mem_set hm).resolve_right fun h => hne h.symm
  cases he with
  | transport | fired | claimed | rejected | produced | dropped => exact .inl hc
  | called =>
    refine .inl ((List.mem_append.1 hc).resolve_right ?_)
    intro h
    cases List.mem_singleton.1 h
  | parked | cancelled => exact .inl (hset hc nofun)
  | returned hv =>
    rcases List.mem_or_eq_of_mem_set hc with hc | hc
    · exact .inl hc
    · exact .inr ⟨_, _, _, rfl, hv, rfl, by injection hc⟩

/-- After the overflow nothing is added: the backlog stays, and what is drained stays drained. -/
theorem Effect.latched (he : d.Effect a d') (hi : d.inbound.Inv) {b : List InboundMessage}
    (hb : d.inbound.backlog = some b) :
    d'.inbound.backlog = some b ∧ (d.inbound.queue = [] → d'.inbound.queue = []) := by
  have hsame : ∀ {i : Inbound}, d.inbound.Same i →
      i.backlog = some b ∧ (d.inbound.queue = [] → i.queue = []) := fun hs =>
    ⟨hs.backlog.trans hb, fun hq => hs.queue.trans hq⟩
  have hpolled : ∀ {h : Holder} {r : Option (Except WebrtcError InboundMessage)} {i : Inbound},
      d.inbound.Polled h r i → i.backlog = some b ∧ (d.inbound.queue = [] → i.queue = []) := by
    intro h r i hp
    cases hp with
    | pending hs | failed hs => exact hsame hs
    | message hr hk hq hp ha hb' => exact ⟨hb'.trans hb, fun hnil => by rw [hnil] at hq; cases hq⟩
  have hthen : ∀ {i i' : Inbound}, i.Same i' →
      i.backlog = some b ∧ (d.inbound.queue = [] → i.queue = []) →
      i'.backlog = some b ∧ (d.inbound.queue = [] → i'.queue = []) := fun hs h =>
    ⟨hs.backlog.trans h.1, fun hq => hs.queue.trans (h.2 hq)⟩
  cases he with
  | transport hm => exact ⟨(hm.latched b hb hi).1, fun hq => (hm.latched b hb hi).2.trans hq⟩
  | parked _ hp => exact hpolled hp
  | returned hv =>
    cases hv with
    | refused => exact hsame (.refl _)
    | ready _ hp => exact hpolled hp
    | woken _ hp | closed _ hp => exact hthen (same_dropFuture _ _) (hpolled hp)
  | produced _ hp hs => exact hthen hs (hpolled hp)
  | cancelled | dropped => exact hsame (same_dropFuture _ _)
  | fired | called | claimed | rejected => exact hsame (.refl _)

end DataChannel

end WebrtcDatachannels.Host
