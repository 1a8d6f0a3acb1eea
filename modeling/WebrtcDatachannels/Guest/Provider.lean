import WebrtcDatachannels.Guest.Inbox

/-!
# The exported methods between their awaits

`wasip3-impl/src/provider.rs`. The executor is single-threaded, so a method runs from one await to
the next without interruption. Each definition here is such a block, as a function on the shared
state: it either returns, or decides to wait for a change after the version it has `seen`.
-/

namespace WebrtcDatachannels.Guest

/-- What a block decides: to return `r`, or to await `changed(seen)`. -/
inductive Verdict (ρ : Type) where
  | ret (r : ρ)
  | wait (seen : Nat)
deriving DecidableEq, Repr

/-- The wake channel behind a handle: the one the connection's pump selects on, or a fresh one
that nothing reads. -/
inductive Waker where
  | pump
  | detached
deriving DecidableEq, Repr

/-- A handle onto a channel. Source: `DataChannel`. -/
structure DataChannel where
  waker : Waker
  id : RTCDataChannelId
  label : String
deriving DecidableEq, Repr

/-- Source: `ChannelState`. -/
inductive ChannelState where
  | open
  | opening
  | closed
deriving DecidableEq, Repr

/-- Observe a channel's state. Source: `channel_state`. -/
def channelState (s : Shared) (id : RTCDataChannelId) : ChannelState :=
  match s.channel? id with
  | some c => if c.closed then .closed else .open
  | none => if s.closed || s.failed then .closed else .opening

section
variable {ρ : Type}

/-- One pass of the loop of `DataChannel::when_open`. -/
def whenOpen (s : Shared) (id : RTCDataChannelId) (op : Shared → Except Error ρ × Shared) :
    Verdict (Except Error ρ) × Shared :=
  match channelState s id with
  | .open => (.ret (op s).1, (op s).2)
  | .closed => (.ret (.error .closed), s)
  | .opening => (.wait s.watch.version, s)

end

/-- The operation that `send` and `send_via_stream` run on an open channel: hand the message to the
core, whose answer is `answer`. -/
def handOver (id : RTCDataChannelId) (message : Message) (answer : Except String Unit)
    (s : Shared) : Except Error Unit × Shared :=
  ((s.peer.send id message answer).1.mapError Error.other,
    { s with peer := (s.peer.send id message answer).2 })

/-- The message of an inbound record. Source: the `Ok` arm of `DataChannel::receive`. -/
def toMessage (m : InboundMessage) : Message :=
  if m.text then .string (fromUtf8Lossy m.data) else .binary m.data

/-- One pass of the loop of `DataChannel::receive`. -/
def receive (s : Shared) (id : RTCDataChannelId) : Verdict (Except Error Message) × Shared :=
  match s.channel? id with
  | some c =>
    if c.streamClaimed then (.ret (.error .receivingViaStream), s)
    else
      match s.popChannel id with
      | (some m, s') => (.ret (.ok (toMessage m)), s')
      | (none, _) =>
        if c.overflowed then (.ret (.error .receiveBufferOverflow), s)
        else if c.closed then (.ret (.error .closed), s)
        else (.wait s.watch.version, s)
  | none => if s.dead then (.ret (.error .closed), s) else (.wait s.watch.version, s)

/-- The once-only claim; a feeder is spawned when it is granted. Source:
`DataChannel::receive_via_stream`. -/
def receiveViaStream (s : Shared) (id : RTCDataChannelId) : Except Error Unit × Shared :=
  if (s.channel? id).any (·.streamClaimed) then (.error .receivingViaStream, s)
  else if channelState s id = .closed then (.error .closed, s)
  else
    match s.channel? id with
    | some _ => (.ok (), (s.modifyChannel id Channel.claim).notify)
    | none => (.ok (), s)

/-- Source: `Next` in `pump_receive`. -/
inductive Next where
  | message (m : InboundMessage)
  | wait (seen : Nat)
  | done
deriving DecidableEq, Repr

/-- The feeder of a claimed stream pulls its next message. Source: `pump_receive`. -/
def pullNext (s : Shared) (id : RTCDataChannelId) : Next × Shared :=
  match s.channel? id with
  | some c =>
    match s.popChannel id with
    | (some m, s') => (.message m, s')
    | (none, _) => if c.closed then (.done, s) else (.wait s.watch.version, s)
  | none => if s.dead then (.done, s) else (.wait s.watch.version, s)

/-- The scan of the tracked channels from the cursor: the next one that is not the local channel,
and the cursor after it. Source: the `while` loop of `pump_incoming`. -/
def scanIncoming (localChannel : Option RTCDataChannelId) :
    List Channel → Nat → Option (RTCDataChannelId × String) × Nat
  | [], cursor => (none, cursor)
  | c :: cs, cursor =>
    if some c.id ≠ localChannel then (some (c.id, c.label), cursor + 1)
    else scanIncoming localChannel cs (cursor + 1)

/-- One pass of the loop of `wait_connected` at the time `now`. -/
def waitConnected (s : Shared) (deadline now : Instant) : Verdict (Except Error Unit) :=
  if s.connected then .ret (.ok ())
  else if s.failed || s.closed then .ret (.error .closed)
  else if now ≥ deadline then .ret (.error .timedOut)
  else .wait s.watch.version

/-! ## Streams -/

/-- `wit_bindgen::StreamResult`. -/
inductive StreamResult where
  | complete
  | dropped
  | cancelled
deriving DecidableEq, Repr

/-- `matches!(status, StreamResult::Dropped | StreamResult::Cancelled)`. -/
def StreamResult.ended : StreamResult → Bool
  | .complete => false
  | .dropped | .cancelled => true

/-- One result of a read of a payload stream. -/
structure PayloadRead where
  status : StreamResult
  buf : Bytes
deriving DecidableEq, Repr

/-- `drain_stream` stops before the next read: the declared bytes are there. -/
def drainFull (length : Nat) (out : Bytes) : Bool := length ≠ 0 && out.length ≥ length

/-- The bytes of a payload stream whose reads return `reads`, read until the declared length is
there or the stream ends; `none` while a further read is needed. Source: `drain_stream`. -/
def drainStream (length : Nat) (out : Bytes) : List PayloadRead → Option Bytes
  | [] => if drainFull length out then some out else none
  | r :: reads =>
    if drainFull length out then some out
    else if r.status.ended then some (out ++ r.buf)
    else drainStream length (out ++ r.buf) reads

/-- The message of a drained stream element. Source: the loop body of `send_via_stream`. -/
def elementMessage (kind : MessageKind) (data : Bytes) : Message :=
  match kind with
  | .string => .string (fromUtf8Lossy data)
  | .binary => .binary data

/-! ## What the blocks do -/

section
variable {s : Shared} {id : RTCDataChannelId} {c : Channel}

/-- A pop of a tracked channel. -/
theorem popChannel_some (hc : s.channel? id = some c) :
    s.popChannel id = (c.pop.1, s.modifyChannel id fun c => c.pop.2) := by
  simp [Shared.popChannel, hc]

/-- On a channel that is gone `when_open` returns `closed` and does not run the operation. -/
theorem whenOpen_closed {ρ : Type} (h : channelState s id = .closed)
    (op : Shared → Except Error ρ × Shared) :
    whenOpen s id op = (.ret (.error .closed), s) := by
  simp [whenOpen, h]

/-- A claimed channel refuses `receive`, which leaves the state as it was. -/
theorem receive_claimed (hc : s.channel? id = some c) (h : c.streamClaimed = true) :
    receive s id = (.ret (.error .receivingViaStream), s) := by
  simp [receive, hc, h]

/-- A claimed channel refuses a further claim. -/
theorem receiveViaStream_claimed (hc : s.channel? id = some c) (h : c.streamClaimed = true) :
    receiveViaStream s id = (.error .receivingViaStream, s) := by
  simp [receiveViaStream, hc, h]

/-- The outcomes of a claim: refused with the state unchanged, granted on a tracked open channel,
whose record is marked, or granted on an untracked channel of a live connection, which changes
nothing. -/
theorem receiveViaStream_cases (s : Shared) (id : RTCDataChannelId) :
    (∃ e, receiveViaStream s id = (.error e, s)) ∨
    (∃ c, s.channel? id = some c ∧ c.streamClaimed = false ∧ c.closed = false ∧
      receiveViaStream s id = (.ok (), (s.modifyChannel id Channel.claim).notify)) ∨
    (s.channel? id = none ∧ s.dead = false ∧ receiveViaStream s id = (.ok (), s)) := by
  unfold receiveViaStream
  cases hc : s.channel? id with
  | some c =>
    cases hs : c.streamClaimed with
    | true => exact .inl ⟨.receivingViaStream, by simp [hs]⟩
    | false =>
      cases hcl : c.closed with
      | true => exact .inl ⟨.closed, by simp [hs, channelState, hc, hcl]⟩
      | false => exact .inr (.inl ⟨c, rfl, hs, hcl, by simp [hs, channelState, hc, hcl]⟩)
  | none =>
    cases hd : s.dead with
    | true =>
      have hd' : (s.closed || s.failed) = true := hd
      exact .inl ⟨.closed, by simp [channelState, hc, hd']⟩
    | false =>
      have hd' : (s.closed || s.failed) = false := hd
      exact .inr (.inr ⟨rfl, rfl, by simp [channelState, hc, hd']⟩)

/-- The outcomes of a pass of `receive`: it leaves the state as it was, or pops the oldest message
of an unclaimed channel and returns it. -/
theorem receive_cases (s : Shared) (id : RTCDataChannelId) :
    (∃ v, receive s id = (v, s) ∧ ∀ m, v ≠ .ret (.ok m)) ∨
    (∃ c m, s.channel? id = some c ∧ c.streamClaimed = false ∧ s.popChannel id =
      (some m, s.modifyChannel id fun c => c.pop.2) ∧
      receive s id = (.ret (.ok (toMessage m)), s.modifyChannel id fun c => c.pop.2)) := by
  unfold receive
  cases hc : s.channel? id with
  | none => exact .inl (by cases hd : s.dead <;> simp)
  | some c =>
    cases hs : c.streamClaimed with
    | true => exact .inl (by simp [hs])
    | false =>
      rw [popChannel_some hc]
      cases hp : c.pop.1 with
      | some m => exact .inr ⟨c, m, rfl, hs, rfl, by simp [hs]⟩
      | none =>
        refine .inl ?_
        cases ho : c.overflowed <;> cases hcl : c.closed <;> simp [hs, ho, hcl]

/-- The outcomes of a pull: it leaves the state as it was, or pops the oldest message. -/
theorem pullNext_cases (s : Shared) (id : RTCDataChannelId) :
    (∃ v, pullNext s id = (v, s) ∧ ∀ m, v ≠ .message m) ∨
    (∃ c m, s.channel? id = some c ∧ s.popChannel id =
      (some m, s.modifyChannel id fun c => c.pop.2) ∧
      pullNext s id = (.message m, s.modifyChannel id fun c => c.pop.2)) := by
  unfold pullNext
  cases hc : s.channel? id with
  | none => exact .inl (by cases hd : s.dead <;> simp)
  | some c =>
    rw [popChannel_some hc]
    cases hp : c.pop.1 with
    | some m => exact .inr ⟨c, m, rfl, rfl, rfl⟩
    | none =>
      refine .inl ?_
      cases hcl : c.closed <;> simp [hcl]

end

/-- A scan that finds a channel skipped the remembered one only. -/
theorem scanIncoming_some {l : Option RTCDataChannelId} {cs : List Channel} {n n' : Nat}
    {id : RTCDataChannelId} {label : String} (h : scanIncoming l cs n = (some (id, label), n')) :
    ∃ skipped rest, cs.map Channel.id = (skipped ++ [id]) ++ rest ∧
      n' = n + (skipped ++ [id]).length ∧ (∀ x ∈ skipped, some x = l) ∧ some id ≠ l := by
  induction cs generalizing n with
  | nil => cases h
  | cons c cs ih =>
    rw [scanIncoming] at h
    split at h
    · next hne =>
      cases h
      exact ⟨[], cs.map Channel.id, rfl, rfl, nofun, hne⟩
    · next he =>
      obtain ⟨skipped, rest, hmap, hn, hskip, hid⟩ := ih h
      refine ⟨c.id :: skipped, rest, by simp [hmap], by simp [hn]; omega, fun x hx => ?_, hid⟩
      rcases List.mem_cons.1 hx with rfl | hx
      · simpa using he
      · exact hskip x hx

/-- A scan that finds nothing skipped every channel. -/
theorem scanIncoming_skips {l : Option RTCDataChannelId} {cs : List Channel} {n : Nat}
    (h : (scanIncoming l cs n).1 = none) :
    (∀ x ∈ cs.map Channel.id, some x = l) ∧ (scanIncoming l cs n).2 = n + cs.length := by
  induction cs generalizing n with
  | nil => exact ⟨nofun, rfl⟩
  | cons c cs ih =>
    rw [scanIncoming] at h ⊢
    split at h
    · cases h
    · next he =>
      rw [if_neg he]
      obtain ⟨hskip, hn⟩ := ih h
      refine ⟨fun x hx => ?_, by rw [hn, List.length_cons]; omega⟩
      rcases List.mem_cons.1 hx with rfl | hx
      · simpa using he
      · exact hskip x hx

end WebrtcDatachannels.Guest
