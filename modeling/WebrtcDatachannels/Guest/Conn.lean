import WebrtcDatachannels.Guest.Provider

/-!
# A peer connection and its tasks

The whole in-guest connection as one step function `Conn.step`: the core queueing what happened on
the wire, the pump's blocks (`Runtime::pump`), the exported methods of `wasip3-impl/src/provider.rs`
and the feeders they spawn. The executor is single-threaded, so a step runs one task from an await
to the next one; between two steps any other task may run. A task that awaits `changed(seen)` can be
polled on once the version has moved past `seen`. Every step is a run of the ledger
(`Conn.step_effect`), so the accounting of `Guest/Inbox` holds of every connection
(`Conn.accounted_run`).
-/

namespace WebrtcDatachannels.Guest

/-! ## Tasks -/

/-- A call that loops over its check: pending, before its first pass or awaiting `changed(seen)`, or
returned. -/
inductive Call (ρ : Type) where
  | pending (seen : Option Nat)
  | returned (r : ρ)
deriving DecidableEq

/-- Where `send_via_stream` stands: awaiting a read of the guest's stream, awaiting a read of an
element's payload, in `when_open` with the element's message, or returned. `status` came with the
element. -/
inductive SendStream where
  | reading
  | draining (status : StreamResult) (kind : MessageKind) (length : Nat) (out : Bytes)
  | opening (status : StreamResult) (message : Message) (seen : Option Nat)
  | returned (r : Except SendViaStreamError Unit)

/-- Where a feeder stands: in its loop, writing an item, writing an item's payload, ended with the
connection or the channel, or ended because the reader is gone, which refused the item. -/
inductive Feed (α : Type) where
  | looping (seen : Option Nat)
  | writing (item : α)
  | payload
  | done
  | dropped (item : α)

/-- The item a feeder has taken and its stream has not accepted. -/
def Feed.inHand {α : Type} : Feed α → List α
  | .writing item | .dropped item => [item]
  | .looping _ | .payload | .done => []

/-- The feeder has not ended. -/
def Feed.live {α : Type} : Feed α → Bool
  | .looping _ | .writing _ | .payload => true
  | .done | .dropped _ => false

/-- A task of the connection. A `pump_receive` feeder comes with the messages its stream delivered
and, for reference, those popped from its channel before the claim; a `pump_incoming` feeder with
the handles its stream delivered. -/
inductive Task where
  | send (handle : DataChannel) (message : Message) (call : Call (Except Error Unit))
  | sendViaStream (handle : DataChannel) (sent : Nat) (stage : SendStream)
  | receive (handle : DataChannel) (call : Call (Except Error Message))
  | pumpReceive (id : RTCDataChannelId) (before delivered : List InboundMessage)
      (feed : Feed InboundMessage)
  | pumpIncoming (localChannel : Option RTCDataChannelId) (cursor : Nat)
      (yielded : List DataChannel) (feed : Feed DataChannel)
  | waitConnected (deadline : Instant) (call : Call (Except Error Unit))

/-- `Changed::poll` resolves; a task that has not awaited anything yet goes on as well. -/
def StateWatch.ready (w : StateWatch) (seen : Option Nat) : Bool := seen.all (· ≠ w.version)

/-- Where a call stands after a pass. -/
def Verdict.call {ρ : Type} : Verdict ρ → Call ρ
  | .ret r => .returned r
  | .wait seen => .pending (some seen)

/-- The pass returned `Ok`. -/
def Verdict.succeeded {ε ρ : Type} : Verdict (Except ε ρ) → Bool
  | .ret (.ok _) => true
  | _ => false

/-- A pass that decided to wait leaves the task's waker registered. -/
def Shared.park {ρ : Type} (s : Shared) (task : TaskId) : Verdict ρ → Shared
  | .ret _ => s
  | .wait _ => { s with watch := s.watch.register task }

/-- The tokens that `let _ = self.waker.unbounded_send(())` puts on the pump's wake channel. -/
def Waker.tokens : Waker → Nat
  | .pump => 1
  | .detached => 0

/-- Where `send_via_stream` stands after a pass of `when_open` for its element. -/
def SendStream.after (status : StreamResult) (message : Message) (sent : Nat) :
    Verdict (Except Error Unit) → SendStream
  | .ret (.error error) => .returned (.error ⟨error, sent⟩)
  | .ret (.ok _) => if status.ended then .returned (.ok ()) else .reading
  | .wait seen => .opening status message (some seen)

/-- What a poll leaves behind: the task, the shared state, the message it popped and the tokens it
put on the wake channel. -/
structure Polled where
  task : Task
  shared : Shared
  popped : List (RTCDataChannelId × InboundMessage)
  tokens : Nat

/-- The message that `Channel::pop` returns, as an entry of the history. -/
def Shared.popEntry (s : Shared) (id : RTCDataChannelId) :
    List (RTCDataChannelId × InboundMessage) :=
  ((s.popChannel id).1.map (id, ·)).toList

/-- The executor polls a task that can go on; `answer` is what the core answers to a send. -/
def Task.poll (s : Shared) (k : TaskId) (now : Instant) (answer : Except String Unit) :
    Task → Option Polled
  | .send h message (.pending seen) =>
    if s.watch.ready seen then
      let p := whenOpen s h.id (handOver h.id message answer)
      some
        { task := .send h message p.1.call
          shared := p.2.park k p.1
          popped := []
          tokens := if p.1.succeeded then h.waker.tokens else 0 }
    else none
  | .sendViaStream h sent (.opening status message seen) =>
    if s.watch.ready seen then
      let p := whenOpen s h.id (handOver h.id message answer)
      some
        { task := .sendViaStream h (if p.1.succeeded then sent + 1 else sent)
            (.after status message sent p.1)
          shared := p.2.park k p.1
          popped := []
          tokens := if p.1.succeeded then h.waker.tokens else 0 }
    else none
  | .receive h (.pending seen) =>
    if s.watch.ready seen then
      let p := Guest.receive s h.id
      some
        { task := .receive h p.1.call
          shared := p.2.park k p.1
          popped := if p.1.succeeded then s.popEntry h.id else []
          tokens := 0 }
    else none
  | .pumpReceive id before delivered (.looping seen) =>
    if s.watch.ready seen then
      let p := pullNext s id
      match p.1 with
      | .message m =>
        some
          { task := .pumpReceive id before delivered (.writing m)
            shared := p.2
            popped := [(id, m)]
            tokens := 0 }
      | .wait seen' =>
        some
          { task := .pumpReceive id before delivered (.looping (some seen'))
            shared := { p.2 with watch := p.2.watch.register k }
            popped := []
            tokens := 0 }
      | .done =>
        some
          { task := .pumpReceive id before delivered .done
            shared := p.2
            popped := []
            tokens := 0 }
    else none
  | .pumpIncoming localChannel cursor yielded (.looping seen) =>
    if s.watch.ready seen then
      let p := scanIncoming localChannel (s.channels.drop cursor) cursor
      match p.1 with
      | some (id, label) =>
        some
          { task := .pumpIncoming localChannel p.2 yielded (.writing ⟨.detached, id, label⟩)
            shared := s
            popped := []
            tokens := 0 }
      | none =>
        if s.dead then
          some
            { task := .pumpIncoming localChannel p.2 yielded .done
              shared := s
              popped := []
              tokens := 0 }
        else
          some
            { task := .pumpIncoming localChannel p.2 yielded (.looping (some s.watch.version))
              shared := { s with watch := s.watch.register k }
              popped := []
              tokens := 0 }
    else none
  | .waitConnected deadline (.pending seen) =>
    -- the timer of the pass resolves at the deadline
    if s.watch.ready seen || deadline ≤ now then
      let v := Guest.waitConnected s deadline now
      some
        { task := .waitConnected deadline v.call, shared := s.park k v, popped := [], tokens := 0 }
    else none
  | _ => none

/-- What the guest does to a stream that a task reads or writes: a read returns an element or none,
a read of a payload returns, a write is accepted, the payload of the accepted element is drained or
given up, a write is refused because the reader is gone. -/
inductive Io where
  | element (status : StreamResult) (element : Option (MessageKind × Nat))
  | payload (r : PayloadRead)
  | accepted
  | drained
  | refused
deriving DecidableEq, Repr

/-- The capacity of the next read of a payload, `length.saturating_sub(out.len()).max(1)`. -/
def drainWant (length : Nat) (out : Bytes) : Nat := max (length - out.length) 1

/-- A task goes on when its stream operation completes. -/
def Task.advance : Task → Io → Option Task
  | .sendViaStream h sent .reading, .element status none =>
    some (.sendViaStream h sent (if status.ended then .returned (.ok ()) else .reading))
  | .sendViaStream h sent .reading, .element status (some (kind, length)) =>
    some (.sendViaStream h sent (.draining status kind length []))
  | .sendViaStream h sent (.draining status kind length out), .payload r =>
    if r.buf.length ≤ drainWant length out then
      match drainStream length out [r] with
      | some bytes =>
        some (.sendViaStream h sent (.opening status (elementMessage kind bytes) none))
      | none => some (.sendViaStream h sent (.draining status kind length (out ++ r.buf)))
    else none
  | .pumpReceive id before delivered (.writing m), .accepted =>
    some (.pumpReceive id before (delivered ++ [m]) .payload)
  | .pumpReceive id before delivered .payload, .drained =>
    some (.pumpReceive id before delivered (.looping none))
  | .pumpReceive id before delivered (.writing m), .refused =>
    some (.pumpReceive id before delivered (.dropped m))
  | .pumpIncoming localChannel cursor yielded (.writing h), .accepted =>
    some (.pumpIncoming localChannel cursor (yielded ++ [h]) (.looping none))
  | .pumpIncoming localChannel cursor yielded (.writing h), .refused =>
    some (.pumpIncoming localChannel cursor yielded (.dropped h))
  | _, _ => none

/-- The handles the guest gets when a task's stream operation completes. -/
def Task.adopted : Task → Io → List DataChannel
  | .pumpIncoming _ _ _ (.writing h), .accepted => [h]
  | _, _ => []

/-! ## The connection -/

/-- Where the pump stands: in its loop, past its last block and flushing, or returned. -/
inductive Pump where
  | running
  | finishing
  | exited
deriving DecidableEq, Repr

/-- A peer connection: the shared state with its history, the pump, the fields of `PeerState` that
the methods read, the handles given to the guest, the ids `create_data_channel` returned, the tokens
put on the pump's wake channel, and the tasks by their `TaskId`. -/
structure Conn where
  ledger : Ledger
  pump : Pump
  localChannel : Option RTCDataChannelId
  waker : Waker
  handles : List DataChannel
  created : List RTCDataChannelId
  tokens : Nat
  tasks : List Task

/-- What can happen on a connection. -/
inductive Act where
  | core (events : List RTCPeerConnectionEvent) (reads : List RTCMessage)
      (labels : List (RTCDataChannelId × String))
  | turn (now : Instant)
  | finish
  | createDataChannel (label : String) (answer : Except String RTCDataChannelId)
  | incomingDataChannels
  | close (now : Instant)
  | send (h : DataChannel) (message : Message)
  | sendViaStream (h : DataChannel)
  | receive (h : DataChannel)
  | receiveViaStream (h : DataChannel)
  | waitConnected (deadline : Instant)
  | poll (k : TaskId) (now : Instant) (answer : Except String Unit)
  | io (k : TaskId) (io : Io)

/-- A closed placeholder used when the connection failed to bind. Source: `dead_shared`. -/
def deadShared : Shared :=
  { peer := .answerer, channels := [], connected := false, failed := true, closed := true,
    closeRequested := false, shutdownComplete := true, drainDeadline := none,
    watch := StateWatch.new }

namespace Conn

/-- The shared state. -/
abbrev shared (c : Conn) : Shared := c.ledger.shared

/-- `PeerConnection::new` when the socket was bound. -/
def bound : Conn :=
  { ledger := .init .answerer, pump := .running, localChannel := none, waker := .pump,
    handles := [], created := [], tokens := 0, tasks := [] }

/-- `PeerConnection::new` when binding failed: no pump, and a wake channel that nothing reads. -/
def unbound : Conn :=
  { ledger := { shared := deadShared, applied := [], popped := [] }, pump := .exited,
    localChannel := none, waker := .detached, handles := [], created := [], tokens := 0,
    tasks := [] }

/-- A connection as its constructor returns it. -/
def Start (c : Conn) : Prop := c = bound ∨ c = unbound

/-- Replace the shared state. -/
def setShared (c : Conn) (s : Shared) : Conn := { c with ledger := { c.ledger with shared := s } }

/-- Start a task. -/
def spawn (c : Conn) (t : Task) : Conn := { c with tasks := c.tasks ++ [t] }

/-- The core picks an id that no channel of the connection has, tracked, queued or created. -/
def Fresh (c : Conn) (id : RTCDataChannelId) : Prop :=
  c.shared.channel? id = none ∧ id ∉ c.created ∧
    .onDataChannel (.onOpen id) ∉ c.shared.peer.events

instance (c : Conn) (id : RTCDataChannelId) : Decidable (c.Fresh id) :=
  inferInstanceAs (Decidable (_ ∧ _ ∧ _))

/-- The events of the pump's next block, folded over the history. -/
def turnLedger (limit : Nat) (c : Conn) : Ledger :=
  c.shared.drained.foldl (fun L e => L.next limit (.event e))
    { c.ledger with shared := c.shared.drain }

/-- The pump's block between its two flushes. Source: `Runtime::pump`. -/
def turn (limit : Nat) (c : Conn) (now : Instant) : Conn :=
  { c with
    ledger := { c.turnLedger limit with shared := c.shared.turn limit }
    pump := if (c.shared.turn limit).done now then .finishing else .running }

/-- Source: `create_data_channel`. -/
def createDataChannel (c : Conn) (label : String) :
    Except String RTCDataChannelId → Option Conn
  | .error _ => some c
  | .ok id =>
    if c.Fresh id then
      some
        { c.setShared { c.shared with peer := c.shared.peer.createDataChannel id label } with
          localChannel := some id
          handles := c.handles ++ [⟨c.waker, id, label⟩]
          created := c.created ++ [id] }
    else none

/-- Source: `DataChannel::receive_via_stream`. -/
def receiveViaStream (c : Conn) (h : DataChannel) : Conn :=
  let p := Guest.receiveViaStream c.shared h.id
  match p.1 with
  | .ok () =>
    (c.setShared p.2).spawn (.pumpReceive h.id (ofChannel h.id c.ledger.popped) [] (.looping none))
  | .error _ => c.setShared p.2

/-- One step; a method is called on a handle that the guest has. -/
def step (limit : Nat) (c : Conn) : Act → Option Conn
  | .core events reads labels =>
    some (c.setShared
      { c.shared with
        peer :=
          { c.shared.peer with
            events := c.shared.peer.events ++ events
            reads := c.shared.peer.reads ++ reads
            labels := labels ++ c.shared.peer.labels } })
  | .turn now => if c.pump = .running then some (c.turn limit now) else none
  | .finish =>
    if c.pump = .finishing then some { c.setShared c.shared.finish with pump := .exited } else none
  | .createDataChannel label answer => c.createDataChannel label answer
  | .incomingDataChannels => some (c.spawn (.pumpIncoming c.localChannel 0 [] (.looping none)))
  | .close now =>
    some { c.setShared (c.shared.beginClose now) with tokens := c.tokens + c.waker.tokens }
  | .send h message =>
    if h ∈ c.handles then some (c.spawn (.send h message (.pending none))) else none
  | .sendViaStream h => if h ∈ c.handles then some (c.spawn (.sendViaStream h 0 .reading)) else none
  | .receive h => if h ∈ c.handles then some (c.spawn (.receive h (.pending none))) else none
  | .receiveViaStream h => if h ∈ c.handles then some (c.receiveViaStream h) else none
  | .waitConnected deadline => some (c.spawn (.waitConnected deadline (.pending none)))
  | .poll k now answer =>
    ((c.tasks[k]?).bind (·.poll c.shared k now answer)).map fun p =>
      { c with
        ledger := { c.ledger with shared := p.shared, popped := c.ledger.popped ++ p.popped }
        tokens := c.tokens + p.tokens
        tasks := c.tasks.set k p.task }
  | .io k io =>
    (c.tasks[k]?).bind fun t => (t.advance io).map fun t' =>
      { c with tasks := c.tasks.set k t', handles := c.handles ++ t.adopted io }

@[simp] theorem setShared_tasks (c : Conn) (s : Shared) : (c.setShared s).tasks = c.tasks := rfl
@[simp] theorem spawn_ledger (c : Conn) (t : Task) : (c.spawn t).ledger = c.ledger := rfl
@[simp] theorem spawn_tasks (c : Conn) (t : Task) : (c.spawn t).tasks = c.tasks ++ [t] := rfl

end Conn

/-! ## The fold of the drained events -/

section
variable {limit : Nat} {L : Ledger}

/-- A fold of events folds the shared state. -/
theorem foldl_event_shared (limit : Nat) (L : Ledger) (es : List PeerEvent) :
    (es.foldl (fun L e => L.next limit (.event e)) L).shared = L.shared.applyEvents limit es := by
  induction es generalizing L with
  | nil => rfl
  | cons e es ih => exact ih _

/-- A fold of events pops nothing. -/
theorem foldl_event_popped (es : List PeerEvent) :
    (es.foldl (fun L e => L.next limit (.event e)) L).popped = L.popped := by
  induction es generalizing L with
  | nil => rfl
  | cons e es ih => exact ih

end

/-! ## What a step does to the ledger -/

/-- The effect of a step on the ledger; `pumps` says that the step is a block of the pump. -/
inductive Effect (limit : Nat) (pumps : Prop) (L : Ledger) : Ledger → Prop where
  /-- Nothing, or a waker registered. -/
  | watch (w : StateWatch) (hw : w.version = L.shared.watch.version) :
      Effect limit pumps L { L with shared := { L.shared with watch := w } }
  /-- A call into the core that hands it no message, or the core queueing what happened. -/
  | peer (p : SansIoPeer) (hp : p.sends = L.shared.peer.sends) :
      Effect limit pumps L { L with shared := { L.shared with peer := p } }
  /-- A message handed to the core on an open channel. -/
  | sent (id : RTCDataChannelId) (message : Message) (answer : Except String Unit)
      (hopen : channelState L.shared id = .open) :
      Effect limit pumps L
        { L with
          shared := { L.shared with peer := (L.shared.peer.send id message answer).2 } }
  /-- A message popped from a channel's inbox. -/
  | popped (id : RTCDataChannelId) (m : InboundMessage) (c : Channel)
      (hc : L.shared.channel? id = some c) (hm : c.pop.1 = some m) :
      Effect limit pumps L
        { L with
          shared := L.shared.modifyChannel id fun c => c.pop.2
          popped := L.popped ++ [(id, m)] }
  /-- The pump's block. -/
  | turn (hpumps : pumps) (es : List PeerEvent) (hes : es = L.shared.drained) :
      Effect limit pumps L
        { es.foldl (fun L e => L.next limit (.event e)) { L with shared := L.shared.drain } with
          shared := L.shared.turn limit }
  | finish : Effect limit pumps L { L with shared := L.shared.finish }
  | beginClose (now : Instant) : Effect limit pumps L { L with shared := L.shared.beginClose now }
  /-- A claim granted on a tracked open channel. -/
  | claim (id : RTCDataChannelId) (c : Channel) (hc : L.shared.channel? id = some c)
      (hs : c.streamClaimed = false) (hcl : c.closed = false) :
      Effect limit pumps L { L with shared := (L.shared.modifyChannel id Channel.claim).notify }

section
variable {limit : Nat} {pumps : Prop} {L : Ledger}

theorem Effect.refl : Effect limit pumps L L := .watch L.shared.watch rfl

/-- A waiting pass registers a waker and does nothing else. -/
theorem Effect.park {ρ : Type} (k : TaskId) (v : Verdict ρ) :
    Effect limit pumps L { L with shared := L.shared.park k v } := by
  cases v with
  | ret r => exact .refl
  | wait seen => exact .watch _ (StateWatch.register_version _ k)

/-- A pass of `when_open` hands its message over on an open channel, or parks or returns. -/
theorem Effect.whenOpen (id : RTCDataChannelId) (message : Message) (answer : Except String Unit)
    (k : TaskId) :
    Effect limit pumps L
      { L with
        shared := (whenOpen L.shared id (handOver id message answer)).2.park k
          (whenOpen L.shared id (handOver id message answer)).1 } := by
  unfold Guest.whenOpen
  cases h : channelState L.shared id with
  | «open» => exact .sent id message answer h
  | closed => exact .refl
  | opening => exact .park k (.wait (ρ := Except Error Unit) _)

end

/-- What a poll does to the ledger. -/
theorem Task.poll_effect {limit : Nat} {pumps : Prop} {L : Ledger} {t : Task} {k : TaskId}
    {now : Instant} {answer : Except String Unit} {p : Polled}
    (h : t.poll L.shared k now answer = some p) :
    Effect limit pumps L { L with shared := p.shared, popped := L.popped ++ p.popped } := by
  unfold Task.poll at h
  split at h
  · next hd message seen =>
    split at h
    · cases h
      have he : Effect limit pumps L _ := .whenOpen hd.id message answer k
      simpa using he
    · cases h
  · next hd sent status message seen =>
    split at h
    · cases h
      have he : Effect limit pumps L _ := .whenOpen hd.id message answer k
      simpa using he
    · cases h
  · next hd seen =>
    split at h
    · cases h
      rcases receive_cases L.shared hd.id with ⟨v, hv, hne⟩ | ⟨c, m, hc, -, hp, hr⟩
      · have hs : v.succeeded = false := by
          rcases v with (e | m) | seen
          · rfl
          · exact absurd rfl (hne m)
          · rfl
        have he : Effect limit pumps L _ := .park k v
        simpa [hv, hs] using he
      · have hm : c.pop.1 = some m := by
          rw [popChannel_some hc, Prod.mk.injEq] at hp
          exact hp.1
        have he : Effect limit pumps L _ := .popped hd.id m c hc hm
        simpa [hr, hp, Verdict.succeeded, Shared.popEntry, Shared.park] using he
    · cases h
  · next id before delivered seen =>
    split at h
    · rcases pullNext_cases L.shared id with ⟨v, hv, hne⟩ | ⟨c, m, hc, hp, hr⟩
      · cases v with
        | message m => exact absurd rfl (hne m)
        | wait seen' =>
          simp only [hv, Option.some.injEq] at h
          subst h
          have he : Effect limit pumps L _ := .watch _ (StateWatch.register_version _ k)
          simpa using he
        | done =>
          simp only [hv, Option.some.injEq] at h
          subst h
          have he : Effect limit pumps L L := .refl
          simpa using he
      · have hm : c.pop.1 = some m := by
          rw [popChannel_some hc, Prod.mk.injEq] at hp
          exact hp.1
        simp only [hr, Option.some.injEq] at h
        subst h
        exact .popped id m c hc hm
    · cases h
  · split at h
    · simp only at h
      split at h
      · cases h
        have he : Effect limit pumps L L := .refl
        simpa using he
      · split at h
        · cases h
          have he : Effect limit pumps L L := .refl
          simpa using he
        · cases h
          have he : Effect limit pumps L _ := .watch _ (StateWatch.register_version _ k)
          simpa using he
    · cases h
  · next deadline seen =>
    split at h
    · cases h
      have he : Effect limit pumps L _ := .park k (Guest.waitConnected L.shared deadline now)
      simpa using he
    · cases h
  · cases h

namespace Conn

variable {limit : Nat} {c c' : Conn} {a : Act}

/-- What a step does to the ledger. -/
theorem step_effect (h : c.step limit a = some c') :
    Effect limit (∃ now, a = .turn now) c.ledger c'.ledger := by
  cases a with
  | core events reads labels => cases h; exact .peer _ rfl
  | turn now =>
    simp only [step] at h
    split at h
    · cases h; exact .turn ⟨now, rfl⟩ _ rfl
    · cases h
  | finish =>
    simp only [step] at h
    split at h
    · cases h; exact .finish
    · cases h
  | createDataChannel label answer =>
    cases answer with
    | error e => cases h; exact .refl
    | ok id =>
      simp only [step, createDataChannel] at h
      split at h
      · cases h; exact .peer _ rfl
      · cases h
  | close now => cases h; exact .beginClose now
  | receiveViaStream hd =>
    simp only [step] at h
    split at h
    · cases h
      unfold receiveViaStream
      rcases receiveViaStream_cases c.shared hd.id with
        ⟨e, hr⟩ | ⟨ch, hc, hs, hcl, hr⟩ | ⟨-, -, hr⟩
      · simp only [hr]; exact .refl
      · simp only [hr]; exact .claim hd.id ch hc hs hcl
      · simp only [hr]; exact .refl
    · cases h
  | poll k now answer =>
    simp only [step, Option.map_eq_some_iff, Option.bind_eq_some_iff] at h
    obtain ⟨p, ⟨t, -, hp⟩, rfl⟩ := h
    exact t.poll_effect hp
  | io k io =>
    simp only [step, Option.bind_eq_some_iff, Option.map_eq_some_iff] at h
    obtain ⟨t, -, t', -, rfl⟩ := h
    exact .refl
  | incomingDataChannels | waitConnected deadline => cases h; exact .refl
  | send hd message | sendViaStream hd | receive hd =>
    simp only [step] at h
    split at h
    · cases h; exact .refl
    · cases h

/-- A task as the step `a` from `c` to `c'` starts it. -/
def Spawned (c : Conn) (a : Act) (c' : Conn) : Task → Prop
  | .send _ _ call => call = .pending none
  | .sendViaStream _ sent stage => sent = 0 ∧ stage = .reading
  | .receive _ call => call = .pending none
  | .pumpReceive id before delivered feed =>
    before = ofChannel id c.ledger.popped ∧ delivered = [] ∧ feed = .looping none ∧
      ∃ h, a = .receiveViaStream h ∧ h.id = id ∧
        (Guest.receiveViaStream c.shared id).1 = .ok () ∧
        c'.shared = (Guest.receiveViaStream c.shared id).2
  | .pumpIncoming localChannel cursor yielded feed =>
    localChannel = c.localChannel ∧ cursor = 0 ∧ yielded = [] ∧ feed = .looping none ∧
      a = .incomingDataChannels
  | .waitConnected _ call => call = .pending none

/-- What the step `a` does to the tasks. -/
inductive TaskEffect (c : Conn) (a : Act) (c' : Conn) : Prop where
  | same (h : c'.tasks = c.tasks) (hp : c'.ledger.popped = c.ledger.popped)
  | spawn (t : Task) (ht : Spawned c a c' t) (h : c'.tasks = c.tasks ++ [t])
      (hp : c'.ledger.popped = c.ledger.popped)
  | poll (k : TaskId) (t : Task) (now : Instant) (answer : Except String Unit) (p : Polled)
      (hk : c.tasks[k]? = some t) (ht : t.poll c.shared k now answer = some p)
      (h : c'.tasks = c.tasks.set k p.task)
      (hl : c'.ledger =
        { c.ledger with shared := p.shared, popped := c.ledger.popped ++ p.popped })
  | io (k : TaskId) (t t' : Task) (io : Io) (hk : c.tasks[k]? = some t)
      (ht : t.advance io = some t') (h : c'.tasks = c.tasks.set k t') (hl : c'.ledger = c.ledger)

/-- A step that is neither a poll nor a stream operation leaves the tasks as they are, or starts
one. -/
theorem step_grows (h : c.step limit a = some c') (hpoll : ∀ k now answer, a ≠ .poll k now answer)
    (hio : ∀ k io, a ≠ .io k io) :
    ∃ new : Option Task, c'.tasks = c.tasks ++ new.toList ∧
      (∀ t, new = some t → Spawned c a c' t) ∧ c'.ledger.popped = c.ledger.popped := by
  have hsame : c'.tasks = c.tasks → c'.ledger.popped = c.ledger.popped →
      ∃ new : Option Task, c'.tasks = c.tasks ++ new.toList ∧
        (∀ t, new = some t → Spawned c a c' t) ∧ c'.ledger.popped = c.ledger.popped :=
    fun ht hp => ⟨none, by simp [ht], nofun, hp⟩
  have hspawn : ∀ t, Spawned c a c' t → c'.tasks = c.tasks ++ [t] →
      c'.ledger.popped = c.ledger.popped →
      ∃ new : Option Task, c'.tasks = c.tasks ++ new.toList ∧
        (∀ t, new = some t → Spawned c a c' t) ∧ c'.ledger.popped = c.ledger.popped :=
    fun t ht he hp => ⟨some t, he, fun _ h => Option.some.inj h ▸ ht, hp⟩
  cases a with
  | core | close => cases h; exact hsame rfl rfl
  | turn now =>
    simp only [step] at h
    split at h
    · cases h; exact hsame rfl (foldl_event_popped _)
    · cases h
  | finish =>
    simp only [step] at h
    split at h
    · cases h; exact hsame rfl rfl
    · cases h
  | createDataChannel label answer =>
    cases answer with
    | error e => cases h; exact hsame rfl rfl
    | ok id =>
      simp only [step, createDataChannel] at h
      split at h
      · cases h; exact hsame rfl rfl
      · cases h
  | incomingDataChannels =>
    cases h; exact hspawn (.pumpIncoming c.localChannel _ _ _) ⟨rfl, rfl, rfl, rfl, rfl⟩ rfl rfl
  | waitConnected deadline => cases h; exact hspawn (.waitConnected deadline _) rfl rfl rfl
  | send hd message =>
    simp only [step] at h
    split at h
    · cases h; exact hspawn (.send hd message _) rfl rfl rfl
    · cases h
  | sendViaStream hd =>
    simp only [step] at h
    split at h
    · cases h; exact hspawn (.sendViaStream hd _ _) ⟨rfl, rfl⟩ rfl rfl
    · cases h
  | receive hd =>
    simp only [step] at h
    split at h
    · cases h; exact hspawn (.receive hd _) rfl rfl rfl
    · cases h
  | receiveViaStream hd =>
    simp only [step] at h
    split at h
    · cases h
      cases hr : (Guest.receiveViaStream c.shared hd.id).1 with
      | error e =>
        refine hsame ?_ ?_ <;> simp [receiveViaStream, hr, setShared]
      | ok u =>
        refine hspawn (.pumpReceive hd.id _ _ _) ⟨rfl, rfl, rfl, hd, rfl, rfl, hr, ?_⟩ ?_ ?_ <;>
          simp [receiveViaStream, hr, setShared, spawn]
    · cases h
  | poll k now answer => exact absurd rfl (hpoll k now answer)
  | io k io => exact absurd rfl (hio k io)

/-- A step that neither polls a task nor completes a stream operation of it keeps the task. -/
theorem step_keeps (h : c.step limit a = some c') {k : TaskId} {t : Task}
    (hk : c.tasks[k]? = some t) (hpoll : ∀ now answer, a ≠ .poll k now answer)
    (hio : ∀ io, a ≠ .io k io) : c'.tasks[k]? = some t := by
  have hgrows : (∀ k now answer, a ≠ .poll k now answer) → (∀ k io, a ≠ .io k io) →
      c'.tasks[k]? = some t := by
    intro hpoll hio
    obtain ⟨new, htasks, -, -⟩ := step_grows h hpoll hio
    rw [htasks, List.getElem?_append_left (List.getElem?_eq_some_iff.1 hk).1, hk]
  cases a with
  | poll k₀ now answer =>
    have hne : k₀ ≠ k := fun he => hpoll now answer (he ▸ rfl)
    simp only [step, Option.map_eq_some_iff, Option.bind_eq_some_iff] at h
    obtain ⟨p, -, rfl⟩ := h
    rw [List.getElem?_set_ne hne, hk]
  | io k₀ io =>
    have hne : k₀ ≠ k := fun he => hio io (he ▸ rfl)
    simp only [step, Option.bind_eq_some_iff, Option.map_eq_some_iff] at h
    obtain ⟨t₀, -, t₁, -, rfl⟩ := h
    rw [List.getElem?_set_ne hne, hk]
  | core | turn | finish | createDataChannel | incomingDataChannels | close | send
  | sendViaStream | receive | receiveViaStream | waitConnected => exact hgrows nofun nofun

/-- A poll of a task that can go on. -/
theorem step_poll {k : TaskId} {t : Task} {now : Instant} {answer : Except String Unit} {p : Polled}
    (hk : c.tasks[k]? = some t) (hp : t.poll c.shared k now answer = some p) :
    ∃ c', c.step limit (.poll k now answer) = some c' ∧ c'.tasks[k]? = some p.task := by
  have hs : ((c.tasks[k]?).bind (·.poll c.shared k now answer)) = some p := by
    rw [hk, Option.bind_some, hp]
  refine ⟨_, congrArg (Option.map _) hs, ?_⟩
  exact List.getElem?_set_self (List.getElem?_eq_some_iff.1 hk).1

/-- A stream operation of a task that completes. -/
theorem step_io {k : TaskId} {t t' : Task} {io : Io} (hk : c.tasks[k]? = some t)
    (ha : t.advance io = some t') :
    ∃ c', c.step limit (.io k io) = some c' ∧ c'.tasks[k]? = some t' := by
  have hs : (t.advance io).map (fun t' =>
      { c with tasks := c.tasks.set k t', handles := c.handles ++ t.adopted io }) = some _ :=
    congrArg (Option.map _) ha
  refine ⟨_, (congrArg (Option.bind · _) hk).trans hs, ?_⟩
  exact List.getElem?_set_self (List.getElem?_eq_some_iff.1 hk).1

/-- A step starts a task, polls one, completes a stream operation of one, or leaves the tasks. -/
theorem step_tasks (h : c.step limit a = some c') : TaskEffect c a c' := by
  have hgrows : (∀ k now answer, a ≠ .poll k now answer) → (∀ k io, a ≠ .io k io) →
      TaskEffect c a c' := by
    intro hpoll hio
    obtain ⟨new, ht, hs, hp⟩ := step_grows h hpoll hio
    cases new with
    | none => exact .same (ht.trans (List.append_nil _)) hp
    | some t => exact .spawn t (hs t rfl) ht hp
  cases a with
  | poll k now answer =>
    simp only [step, Option.map_eq_some_iff, Option.bind_eq_some_iff] at h
    obtain ⟨p, ⟨t, hk, hp⟩, rfl⟩ := h
    exact .poll k t now answer p hk hp rfl rfl
  | io k io =>
    simp only [step, Option.bind_eq_some_iff, Option.map_eq_some_iff] at h
    obtain ⟨t, hk, t', ht, rfl⟩ := h
    exact .io k t t' io hk ht rfl rfl
  | core | turn | finish | createDataChannel | incomingDataChannels | close | send
  | sendViaStream | receive | receiveViaStream | waitConnected => exact hgrows nofun nofun

/-- Where task `k` of the state after a step comes from: it was there, and what another task popped
is all that was popped; or the step started it, polled it, or completed a stream operation of it. -/
inductive TaskOrigin (c : Conn) (a : Act) (c' : Conn) (k : TaskId) (t' : Task) : Prop where
  | kept (hk : c.tasks[k]? = some t') (hp : c'.ledger.popped = c.ledger.popped)
  | other (k₀ : TaskId) (t : Task) (now : Instant) (answer : Except String Unit) (p : Polled)
      (hk : c.tasks[k]? = some t') (hne : k ≠ k₀) (hk₀ : c.tasks[k₀]? = some t)
      (ht : t.poll c.shared k₀ now answer = some p)
      (hp : c'.ledger.popped = c.ledger.popped ++ p.popped)
  | spawned (hk : k = c.tasks.length) (ht : Spawned c a c' t')
      (hp : c'.ledger.popped = c.ledger.popped)
  | polled (t : Task) (now : Instant) (answer : Except String Unit) (p : Polled)
      (hk : c.tasks[k]? = some t) (ht : t.poll c.shared k now answer = some p) (h : p.task = t')
      (hl : c'.ledger =
        { c.ledger with shared := p.shared, popped := c.ledger.popped ++ p.popped })
  | advanced (t : Task) (io : Io) (hk : c.tasks[k]? = some t) (ht : t.advance io = some t')
      (hl : c'.ledger = c.ledger)

/-- Every task after a step has an origin. -/
theorem step_task (h : c.step limit a = some c') {k : TaskId} {t' : Task}
    (hk : c'.tasks[k]? = some t') : TaskOrigin c a c' k t' := by
  cases step_tasks h with
  | same he hp => exact .kept (he ▸ hk) hp
  | spawn t ht he hp =>
    rw [he, List.getElem?_append] at hk
    split at hk
    · exact .kept hk hp
    · next hge =>
      rw [List.getElem?_singleton] at hk
      split at hk
      · next h0 =>
        cases hk
        exact .spawned (Nat.le_antisymm (Nat.sub_eq_zero_iff_le.1 h0) (Nat.not_lt.1 hge)) ht hp
      · cases hk
  | poll k₀ t now answer p hk₀ hp he hl =>
    rw [he, List.getElem?_set] at hk
    split at hk
    · next hkk =>
      subst hkk
      split at hk
      · exact .polled t now answer p hk₀ hp (Option.some.inj hk) hl
      · cases hk
    · next hne => exact .other k₀ t now answer p hk (Ne.symm hne) hk₀ hp (by rw [hl])
  | io k₀ t t₁ io hk₀ hadv he hl =>
    rw [he, List.getElem?_set] at hk
    split at hk
    · next hkk =>
      subst hkk
      split at hk
      · cases hk
        exact .advanced t io hk₀ hadv hl
      · cases hk
    · exact .kept hk (by rw [hl])

/-- What every effect on the ledger relates, a run relates. -/
theorem run_relates {R : Ledger → Ledger → Prop} (hrefl : ∀ L, R L L)
    (htrans : ∀ L M N, R L M → R M N → R L N)
    (hstep : ∀ pumps L M, Effect limit pumps L M → R L M)
    {as : List Act} (h : Runs.run (step limit) c as = some c') : R c.ledger c'.ledger :=
  Runs.relates (R := fun c c' : Conn => R c.ledger c'.ledger) (fun _ => hrefl _)
    (fun _ _ _ => htrans _ _ _) (fun _ _ _ h => hstep _ _ _ (step_effect h)) h

end Conn

/-! ## A connection runs the ledger -/

section
variable {limit : Nat} {pumps : Prop} {L L' : Ledger}

/-- A fold of events is a run of the ledger. -/
theorem run_events (es : List PeerEvent) :
    Runs.run (Ledger.step limit) L (es.map .event) =
      some (es.foldl (fun L e => L.next limit (.event e)) L) := by
  induction es generalizing L with
  | nil => rfl
  | cons e es ih => exact ih

/-- A drain is a step of the ledger. -/
theorem next_drain :
    L.next limit (.rest L.shared.drain.peer L.shared.drain.closeRequested L.shared.drain.watch) =
      { L with shared := L.shared.drain } := by
  simp only [Ledger.next, Shared.drain, Shared.performClose]
  split <;> rfl

/-- The notification that may follow the events of a block is a step of the ledger. -/
theorem next_turn {s : Shared} (h : L.shared = s.drain.applyEvents limit s.drained) :
    L.next limit (.rest (s.turn limit).peer (s.turn limit).closeRequested (s.turn limit).watch) =
      { L with shared := s.turn limit } := by
  simp only [Ledger.next, h, Shared.turn]
  split <;> rfl

/-- The pump's block is a run of the ledger: the drain, the events, the notification. -/
theorem run_turn :
    ∃ bs, Runs.run (Ledger.step limit) L bs = some
      { L.shared.drained.foldl (fun L e => L.next limit (.event e))
          { L with shared := L.shared.drain } with shared := L.shared.turn limit } := by
  refine ⟨.rest L.shared.drain.peer L.shared.drain.closeRequested L.shared.drain.watch ::
    (L.shared.drained.map .event ++
      [.rest (L.shared.turn limit).peer (L.shared.turn limit).closeRequested
        (L.shared.turn limit).watch]), Runs.run_cons_eq_some.2 ⟨_, rfl, ?_⟩⟩
  rw [next_drain]
  refine Runs.run_append_eq_some.2 ⟨_, run_events _, Runs.run_cons_eq_some.2 ⟨_, rfl, ?_⟩⟩
  rw [next_turn (foldl_event_shared limit _ _)]
  rfl

/-- Every effect is a run of the ledger. -/
theorem Effect.run (h : Effect limit pumps L L') :
    ∃ bs, Runs.run (Ledger.step limit) L bs = some L' := by
  cases h with
  | watch w hw => exact ⟨[.rest L.shared.peer L.shared.closeRequested w], rfl⟩
  | peer p hp => exact ⟨[.rest p L.shared.closeRequested L.shared.watch], rfl⟩
  | sent id message answer =>
    exact ⟨[.rest (L.shared.peer.send id message answer).2 L.shared.closeRequested
      L.shared.watch], rfl⟩
  | popped id m c hc hm =>
    refine ⟨[.pop id], ?_⟩
    simp [Runs.run_cons, Ledger.step, Ledger.next, popChannel_some hc, hm]
  | turn _ es hes => subst hes; exact run_turn
  | finish => exact ⟨[.finish], rfl⟩
  | beginClose now => exact ⟨[.beginClose now], rfl⟩
  | claim id c hc hs hcl =>
    exact ⟨[.claim id, .rest L.shared.peer L.shared.closeRequested L.shared.watch.notify], rfl⟩

end

namespace Conn

variable {limit : Nat} {c c' : Conn} {as : List Act}

/-- A run of a connection is a run of its ledger. -/
theorem run_ledger (h : Runs.run (step limit) c as = some c') :
    ∃ bs, Runs.run (Ledger.step limit) c.ledger bs = some c'.ledger := by
  have hstep : ∀ c L a c', c.ledger = L → step limit c a = some c' →
      ∃ bs L', Runs.run (Ledger.step limit) L bs = some L' ∧ c'.ledger = L' := by
    rintro c _ a c' rfl hs
    obtain ⟨bs, hbs⟩ := (step_effect hs).run
    exact ⟨bs, _, hbs, rfl⟩
  obtain ⟨bs, L, hbs, rfl⟩ := Runs.simulates hstep rfl h
  exact ⟨bs, hbs⟩

theorem Start.inv (h : c.Start) : c.ledger.Inv limit := by
  rcases h with rfl | rfl
  · exact Ledger.inv_init _
  · exact ⟨List.nodup_nil, fun _ => ⟨nofun, fun _ => ⟨rfl, rfl⟩⟩⟩

/-- The inboxes of every connection keep their accounts. -/
theorem accounted_run (hs : c.Start) (h : Runs.run (step limit) c as = some c') :
    Accounted limit c'.ledger := by
  obtain ⟨bs, hbs⟩ := run_ledger h
  exact (hs.inv.run hbs).accounted

end Conn

end WebrtcDatachannels.Guest
