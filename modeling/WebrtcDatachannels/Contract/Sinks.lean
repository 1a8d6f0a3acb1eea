import WebrtcDatachannels.Contract.Sources
import WebrtcDatachannels.Guest.Claim
import WebrtcDatachannels.Guest.Drain
import WebrtcDatachannels.Guest.Wakeup
import WebrtcDatachannels.Host.DataChannel
import WebrtcDatachannels.Jco.IncomingQueue
import WebrtcDatachannels.Utf8

/-!
# What the three implementations receive

The inbound queue of each implementation of `lann:webrtc-datachannels` as a sink of messages: what
the `receive` calls and the stream of a channel have returned is what arrived on it, in order, and
all of it once nothing is queued, nothing overflowed and, in the guest, nothing came to a closed
channel (`hostSink`, `guestSink`, `jcoSink`). The guest's sink is a whole connection with its tasks
(`Guest.Conn`), so what is received is what the tasks return.
-/

namespace WebrtcDatachannels.Contract

open Relay (Sink)

/-! ## The Wasmtime host receives -/

namespace HostSink

open Host (DataChannel DataChannelAct InboundMessage Inbound Holder Delivery)
open Host.DataChannel (Delivers)

/-- The message as it arrives. -/
def inbound (m : Message) : InboundMessage := ⟨(Host.intoParts m).1, (Host.intoParts m).2⟩

/-- The step with which a message arrives. -/
def arrives : DataChannelAct → Bool
  | .event (some (.onMessage _)) => true
  | _ => false

/-- A message that arrived intact is read as it was sent. -/
theorem toMessage_inbound (m : Message) : Host.toMessage (inbound m) = .ok m := by
  cases m with
  | binary data => rfl
  | string text =>
    have htext : fromUtf8 (intoBytes text) = some text := fromUtf8_eq_some.2 rfl
    simp [inbound, Host.intoParts, Host.toMessage, htext]

/-- The message that a poll has handed over: the result of a call that took one, or what an element
carries. -/
def message? : Delivery → Option (Except Error Message)
  | .returned c => if c.outcome.isOk then some c.result else none
  | .yielded element => some (Host.toMessage ⟨element.kind = .string, element.data⟩)

/-- What the polls have handed over are the messages that were popped. -/
theorem handed_over {popped : List (Holder × InboundMessage)} {delivered : List Delivery}
    (h : Delivers popped delivered) :
    delivered.filterMap message? = popped.map fun p => Host.toMessage p.2 := by
  induction h with
  | nil => rfl
  | failed _ hc ih => simp [ih, message?, hc, Except.isOk, Except.toBool]
  | call _ hc ih =>
    simp [ih, message?, hc, Except.isOk, Except.toBool, Host.Completion.result, Except.bind]
  | @stream _ _ _ m _ ih =>
    have helement : message? (.yielded (Host.toStreamMessage m)) = some (Host.toMessage m) := by
      obtain ⟨isString, data⟩ := m
      cases isString <;> rfl
    simp [ih, helement]

/-- The same messages are accepted, and the overflow is as it was. -/
def Kept (i i' : Inbound) : Prop :=
  i'.accepted = i.accepted ∧ i'.budget.overflowed = i.budget.overflowed

variable {d d' : DataChannel} {a : DataChannelAct}

theorem Kept.dropFuture {i i' : Inbound} (h : Kept i i') (holder : Holder) :
    Kept i (i'.dropFuture holder) :=
  have hs := Inbound.same_dropFuture i' holder
  ⟨hs.accepted.trans h.1, hs.overflowed.trans h.2⟩

theorem kept_pollNext (i : Inbound) (holder : Holder) : Kept i (i.pollNext holder).2 := by
  have hp := i.pollNext_cases holder
  generalize (i.pollNext holder).1 = r, (i.pollNext holder).2 = i' at hp ⊢
  cases hp with
  | pending hs | failed hs => exact ⟨hs.accepted, hs.overflowed⟩
  | message _ _ _ _ ha _ ho => exact ⟨ha, ho⟩

theorem kept_race (d : DataChannel) (k : Nat) : Kept d.inbound (d.race k).2 := by
  have hp := kept_pollNext d.inbound (.call k)
  unfold DataChannel.race
  split
  · next he => rw [he] at hp; exact hp
  · next he =>
    rw [he] at hp
    split
    · exact hp.dropFuture _
    · split
      · exact hp.dropFuture _
      · exact hp

theorem kept_pollProduce (d : DataChannel) (j : Nat) (finish : Bool) :
    Kept d.inbound (d.pollProduce j finish).2.inbound := by
  have hp := kept_pollNext d.inbound (.stream j)
  rcases hpoll : d.inbound.pollNext (.stream j) with ⟨r, i⟩
  rw [hpoll] at hp
  simp only [DataChannel.pollProduce, Inbound.pollStream_eq, hpoll]
  cases r with
  | some outcome => cases outcome <;> exact hp
  | none =>
    simp only [Option.map_none]
    split
    · exact hp.dropFuture _
    · exact hp

/-- A step without an arrival accepts nothing and latches no overflow. -/
theorem kept_step (h : d.step a = some d') (ha : arrives a = false) :
    Kept d.inbound d'.inbound := by
  have hrefl : Kept d.inbound d.inbound := ⟨rfl, rfl⟩
  cases a with
  | create | closed | fail =>
    obtain ⟨-, h⟩ := Option.ite_none_right_eq_some.1 h
    cases h
    exact ⟨rfl, rfl⟩
  | event e =>
    obtain ⟨-, h⟩ := Option.ite_none_right_eq_some.1 h
    cases h
    cases e with
    | none => exact ⟨rfl, rfl⟩
    | some e =>
      cases e with
      | onOpen | onClose | other => exact ⟨rfl, rfl⟩
      | onMessage => cases ha
  | wire =>
    obtain ⟨i, hw, rfl⟩ := Option.map_eq_some_iff.1 h
    unfold Inbound.wire at hw
    split at hw
    · split at hw <;> cases hw <;> exact ⟨rfl, rfl⟩
    · cases hw
  | fire | receive => cases h; exact hrefl
  | poll k =>
    have hk := kept_race d k
    simp only [DataChannel.step, DataChannel.pollReceive] at h
    rcases hr : d.race k with ⟨r, i⟩
    rw [hr] at hk
    -- the outcome of the race first, then the call's stage and, at its first poll, the flag
    cases r with
    | none | some =>
      simp only [hr] at h
      split at h
      · split at h <;> cases h
        · exact hrefl
        · exact hk
      · cases h; exact hk
      · cases h
  | cancel k =>
    simp only [DataChannel.step] at h
    split at h <;> cases h <;> exact hrefl.dropFuture _
  | receiveViaStream =>
    cases h
    by_cases hs : d.startedTx = true
    · simp only [DataChannel.receiveViaStream, DataChannel.beginStreamReceiving, if_pos hs, if_true]
      exact hrefl
    · simp only [DataChannel.receiveViaStream, DataChannel.beginStreamReceiving, if_neg hs,
        Bool.false_eq_true, if_false]
      exact hrefl
  | produce j finish =>
    obtain ⟨-, h⟩ := Option.ite_none_right_eq_some.1 h
    cases h
    exact kept_pollProduce d j finish
  | dropStream j =>
    obtain ⟨-, h⟩ := Option.ite_none_right_eq_some.1 h
    cases h
    exact hrefl.dropFuture _

/-- What was accepted is what arrived, up to an overflow, and what was popped is handed over. -/
structure Inv (d : DataChannel) (ms : List Message) : Prop where
  inbound : d.inbound.Inv
  delivers : Delivers d.inbound.popped d.delivered
  accepted : d.inbound.accepted <+: ms.map HostSink.inbound
  all : d.inbound.budget.overflowed = false → d.inbound.accepted = ms.map HostSink.inbound

theorem Inv.arrive {ms : List Message} {m : Message} (hi : Inv d ms)
    (h : d.step (.event (some (.onMessage (HostSink.inbound m)))) = some d') :
    Inv d' (ms ++ [m]) := by
  have hdelivers := (DataChannel.step_effect h).delivers hi.delivers
  obtain ⟨-, h⟩ := Option.ite_none_right_eq_some.1 h
  cases h
  refine ⟨hi.inbound.event (some (.onMessage (HostSink.inbound m))), hdelivers, ?_, ?_⟩
  all_goals
    simp only [Inbound.event, List.map_append, List.map_cons, List.map_nil]
    obtain ⟨hr, ho, ho'⟩ | ⟨hr, ho⟩ :=
      d.inbound.budget.reserve_cases (HostSink.inbound m).len
  · rw [if_pos hr]
    simp only [hi.all ho]
    exact List.prefix_rfl
  · rw [hr, if_neg Bool.false_ne_true]
    exact hi.accepted.trans (List.prefix_append _ _)
  · rw [if_pos hr]
    intro _
    simp only [hi.all ho]
  · rw [hr, if_neg Bool.false_ne_true]
    intro hno
    rw [ho] at hno
    cases hno

end HostSink

/-- The inbound queue of the Wasmtime host. -/
def hostSink (limit : Nat) : Sink Message (Except Error Message) where
  State := Host.DataChannel
  Act := Host.DataChannelAct
  start := .deferred limit
  step := Host.DataChannel.step
  arrive m := .event (some (.onMessage (HostSink.inbound m)))
  arrives := HostSink.arrives
  read := .ok
  got d := d.delivered.filterMap HostSink.message?
  Clear d := d.inbound.budget.overflowed = false ∧ d.inbound.queue = []
  Inv := HostSink.Inv
  inv_start := ⟨Host.Inbound.inv_deferred limit, .nil, List.prefix_rfl, fun _ => rfl⟩
  inv_arrive _ _ _ _ hi h := hi.arrive h
  inv_quiet d ms a d' hi ha h := by
    obtain ⟨hacc, hover⟩ := HostSink.kept_step h ha
    refine ⟨(Host.DataChannel.step_effect h).inv hi.inbound,
      (Host.DataChannel.step_effect h).delivers hi.delivers, hacc ▸ hi.accepted, ?_⟩
    rw [hacc, hover]
    exact hi.all
  faithful d ms hi := by
    have hread : (ms.map HostSink.inbound).map Host.toMessage = ms.map .ok := by
      rw [List.map_map]
      exact List.map_congr_left fun m _ => HostSink.toMessage_inbound m
    have hgot : d.delivered.filterMap HostSink.message? =
        (d.inbound.popped.map Prod.snd).map Host.toMessage := by
      rw [HostSink.handed_over hi.delivers, List.map_map]
      rfl
    rw [hgot, ← hread]
    constructor
    · refine List.IsPrefix.map _ ((List.prefix_append _ d.inbound.queue).trans ?_)
      rw [hi.inbound.fifo]
      exact hi.accepted
    · rintro ⟨hopen, hempty⟩
      have hfifo := hi.inbound.fifo
      rw [hempty, List.append_nil] at hfifo
      rw [hfifo, hi.all hopen]

/-! ## The in-guest provider receives -/

/-- A connection one of whose channels is received from: what its `receive`s and its stream have
returned, oldest first, and whether a message came to the channel after it had closed. -/
structure GuestSink where
  conn : Guest.Conn
  got : List Message
  late : Bool

namespace GuestSink

open Guest (Conn Task Act Ledger InboundMessage Channel Shared PeerEvent RTCMessage Polled
  FlagsKept ofChannel)

/-- The message as it arrives. -/
def inbound (m : Message) : InboundMessage := ⟨(Host.intoParts m).1, (Host.intoParts m).2⟩

/-- A message that arrived intact is read as it was sent. -/
theorem toMessage_inbound (m : Message) : Guest.toMessage (inbound m) = m := by
  cases m with
  | binary data => rfl
  | string text =>
    simp [inbound, Host.intoParts, Guest.toMessage, fromUtf8Lossy_intoBytes]

/-- A message of the channel that the core has queued. -/
def ofRead (id : Guest.RTCDataChannelId) : RTCMessage → Option InboundMessage
  | .dataChannelMessage id' text data => if id' = id then some ⟨text, data⟩ else none
  | .other => none

/-- A message of the channel that the pump has drained. -/
def ofEvent (id : Guest.RTCDataChannelId) : PeerEvent → Option InboundMessage
  | .message id' text data => if id' = id then some ⟨text, data⟩ else none
  | _ => none

/-- The step with which a message arrives on the channel: the core queues it. -/
def arrival (id : Guest.RTCDataChannelId) (m : Message) : Act :=
  .core [] [.dataChannelMessage id (inbound m).text (inbound m).data] []

/-- Some message arrives on the channel. -/
def arrives (id : Guest.RTCDataChannelId) : Act → Bool
  | .core _ reads _ => !(reads.filterMap (ofRead id)).isEmpty
  | _ => false

/-- A drained message comes to the channel after it has closed. -/
def comesLate (id : Guest.RTCDataChannelId) (s : Shared) (e : PeerEvent) : Bool :=
  (ofEvent id e).isSome && (s.channel? id).any (·.closed)

/-- Some message of a drain does. -/
def foldsLate (limit : Nat) (id : Guest.RTCDataChannelId) : Shared → List PeerEvent → Bool
  | _, [] => false
  | s, e :: es => comesLate id s e || foldsLate limit id (s.applyEvent limit e) es

/-- Some message of the step does. -/
def late? (limit : Nat) (id : Guest.RTCDataChannelId) (c : Conn) : Act → Bool
  | .turn _ => foldsLate limit id c.shared.drain c.shared.drained
  | _ => false

/-- The message that a `receive` on the channel has returned. -/
def result (id : Guest.RTCDataChannelId) : Task → List Message
  | .receive h (.returned (.ok m)) => if h.id = id then [m] else []
  | _ => []

/-- The message that the stream of the channel delivers as a feeder's write is accepted. -/
def element (id : Guest.RTCDataChannelId) : Task → Guest.Io → List Message
  | .pumpReceive id' _ _ (.writing m), .accepted => if id' = id then [Guest.toMessage m] else []
  | _, _ => []

/-- What a step from `c` to `c'` returns of the channel's messages. -/
def returned (id : Guest.RTCDataChannelId) (c c' : Conn) : Act → List Message
  | .poll k _ _ => (c'.tasks[k]?).elim [] (result id)
  | .io k io => (c.tasks[k]?).elim [] (element id · io)
  | _ => []

/-- One step. -/
def step (limit : Nat) (id : Guest.RTCDataChannelId) (s : GuestSink) (a : Act) :
    Option GuestSink :=
  (s.conn.step limit a).map fun conn =>
    { conn
      got := s.got ++ returned id s.conn conn a
      late := s.late || late? limit id s.conn a }

/-- The channel is created and opens. -/
def opening (id : Guest.RTCDataChannelId) (label : String) : List Act :=
  [.createDataChannel label (.ok id), .core [.onDataChannel (.onOpen id)] [] [], .turn 0]

/-- A connection on which the channel has opened. -/
def opened (limit : Nat) (id : Guest.RTCDataChannelId) (label : String) : Conn :=
  (Runs.run (Conn.step limit) .bound (opening id label)).getD .bound

/-- The message that a feeder of the channel has taken and its stream has not accepted. -/
def inHand (id : Guest.RTCDataChannelId) : Task → List InboundMessage
  | .pumpReceive id' _ _ feed => if id' = id then feed.inHand else []
  | _ => []

/-- No message of the channel came late or overflowed its inbox, and none is with the core, in the
inbox or with a feeder. -/
structure Clear (id : Guest.RTCDataChannelId) (s : GuestSink) : Prop where
  late : s.late = false
  inbox : ∃ c, s.conn.shared.channel? id = some c ∧ c.overflowed = false ∧ c.inbox = []
  reads : s.conn.shared.peer.reads.filterMap (ofRead id) = []
  hands : ∀ t ∈ s.conn.tasks, inHand id t = []

section
variable {limit : Nat} {id : Guest.RTCDataChannelId} {L L' : Ledger} {come : List InboundMessage}
  {late : Bool} {e : PeerEvent} {m : InboundMessage}

/-! ### What comes to the channel -/

/-- What was applied to the channel is what came to it, up to a message that came late or did not
fit, after which it is closed. -/
structure Takes (id : Guest.RTCDataChannelId) (L : Ledger) (come : List InboundMessage)
    (late : Bool) : Prop where
  applied : ofChannel id L.applied <+: come
  channel : ∃ c, L.shared.channel? id = some c ∧
    (ofChannel id L.applied = come ∨ c.closed = true ∧ (late = true ∨ c.overflowed = true))

/-- Nothing comes, and no flag is cleared. -/
theorem Takes.kept (h : Takes id L come late) (hk : FlagsKept L.shared L'.shared)
    (ha : ofChannel id L'.applied = ofChannel id L.applied) : Takes id L' come late := by
  obtain ⟨c, hc, hor⟩ := h.channel
  obtain ⟨c', hc', hkept⟩ := hk.channel id c hc
  refine ⟨ha ▸ h.applied, c', hc', ?_⟩
  rw [ha]
  exact hor.imp_right fun ⟨hcl, hlo⟩ => ⟨hkept.closed hcl, hlo.imp_right hkept.overflowed⟩

/-- An event that is no message of the channel applies nothing to it. -/
theorem applied_other (he : ofEvent id e = none) :
    ofChannel id (L.next limit (.event e)).applied = ofChannel id L.applied := by
  cases e with
  | connected | failed | closed | channelOpen | channelClosed =>
    simp [Ledger.next, Guest.admitted]
  | message id' text data =>
    have hne : id' ≠ id := by simpa [ofEvent] using he
    simp only [Ledger.next, Guest.ofChannel_append, Guest.admitted]
    split
    · split
      · rw [Guest.ofChannel_ne hne, List.append_nil]
      · exact List.append_nil _
    · exact List.append_nil _

/-- A message that comes is applied, or the channel is closed afterwards. -/
theorem applied_message {c : Channel} (hc : L.shared.channel? id = some c)
    (hover : c.overflowed = true → c.closed = true) :
    (c.closed = false ∧
        ofChannel id (L.next limit (.event (.message id m.text m.data))).applied =
          ofChannel id L.applied ++ [m]) ∨
      (ofChannel id (L.next limit (.event (.message id m.text m.data))).applied =
          ofChannel id L.applied ∧
        (c.closed = true ∨ (L.next limit (.event (.message id m.text m.data))).shared.channel? id =
          some c.overflow)) := by
  cases hcl : c.closed with
  | true =>
    refine .inr ⟨?_, .inl rfl⟩
    simp [Ledger.next, Guest.admitted, hc, hcl]
  | false =>
    have hno : c.overflowed = false := by
      cases ho : c.overflowed with
      | false => rfl
      | true => rw [hover ho] at hcl; cases hcl
    by_cases hfit : c.inboxBytes + m.data.length ≤ limit
    · refine .inl ⟨rfl, ?_⟩
      simp [Ledger.next, Guest.admitted, hc, hcl, hno, hfit, Guest.ofChannel_self]
    · refine .inr ⟨?_, .inr ?_⟩
      · simp [Ledger.next, Guest.admitted, hc, hfit]
      · have hgt : c.inboxBytes + m.data.length > limit := Nat.lt_of_not_le hfit
        have h := Guest.Shared.channel?_modifyChannel_self L.shared id Channel.overflow_id
        rw [hc] at h
        have hlive : ¬ (c.overflowed || c.closed) = true := by simp [hcl, hno]
        simp only [Ledger.next, Guest.Shared.applyEvent, hc, if_neg hlive, if_pos hgt]
        exact h

/-- An event of a drain. -/
theorem Takes.event (hL : L.Inv limit) (h : Takes id L come late) (e : PeerEvent) :
    Takes id (L.next limit (.event e)) (come ++ (ofEvent id e).toList)
      (late || comesLate id L.shared e) := by
  have hflags : FlagsKept L.shared (L.next limit (.event e)).shared :=
    Guest.applyEvent_flagsKept limit L.shared e
  cases he : ofEvent id e with
  | none =>
    have hsame : comesLate id L.shared e = false := by simp [comesLate, he]
    rw [hsame, Bool.or_false, Option.toList_none, List.append_nil]
    exact h.kept hflags (applied_other he)
  | some m =>
    obtain rfl : e = .message id m.text m.data := by
      cases e with
      | message id' text data =>
        obtain ⟨rfl, hm⟩ := Option.ite_none_right_eq_some.1 he
        cases hm
        rfl
      | connected | failed | closed | channelOpen | channelClosed => cases he
    obtain ⟨c, hc, hor⟩ := h.channel
    obtain ⟨c', hc', hkept⟩ := hflags.channel id c hc
    obtain ⟨q, hq⟩ := (hL.entry id).1 c hc
    obtain ⟨hopen, happ⟩ | ⟨happ, hdead⟩ := @applied_message limit id L m c hc hq.overflow
    · have heq : ofChannel id L.applied = come := by
        refine hor.resolve_right fun ⟨hcl, _⟩ => ?_
        rw [hopen] at hcl
        cases hcl
      rw [heq] at happ
      exact ⟨happ ▸ List.prefix_rfl, c', hc', .inl happ⟩
    · refine ⟨happ ▸ h.applied.trans (List.prefix_append _ _), c', hc', .inr ?_⟩
      obtain hcl | hdrop := hdead
      · refine ⟨hkept.closed hcl, .inl ?_⟩
        simp [comesLate, he, hc, hcl]
      · rw [hc'] at hdrop
        cases hdrop
        exact ⟨rfl, .inr rfl⟩

/-- The events of a drain. -/
theorem Takes.events (hL : L.Inv limit) (h : Takes id L come late) (es : List PeerEvent) :
    Takes id (es.foldl (fun L e => L.next limit (.event e)) L)
      (come ++ es.filterMap (ofEvent id)) (late || foldsLate limit id L.shared es) := by
  induction es generalizing L come late with
  | nil => simpa [foldsLate] using h
  | cons e es ih =>
    have hcome : come ++ (e :: es).filterMap (ofEvent id) =
        come ++ (ofEvent id e).toList ++ es.filterMap (ofEvent id) := by
      cases he : ofEvent id e <;> simp [he]
    rw [hcome, foldsLate, ← Bool.or_assoc]
    exact ih (hL.next _) (h.event hL e)

/-- The messages of a drain are those that the core had queued. -/
theorem drained_messages (id : Guest.RTCDataChannelId) (s : Shared) :
    s.drained.filterMap (ofEvent id) = s.peer.reads.filterMap (ofRead id) := by
  have hreads : s.performClose.peer.reads = s.peer.reads := by
    unfold Shared.performClose
    split <;> rfl
  have hevents : ∀ (p : Guest.SansIoPeer) (es : List Guest.RTCPeerConnectionEvent),
      (es.filterMap p.peerEvent?).filterMap (ofEvent id) = [] := by
    intro p es
    refine List.filterMap_eq_nil_iff.2 fun e he => ?_
    obtain ⟨x, -, hx⟩ := List.mem_filterMap.1 he
    unfold Guest.SansIoPeer.peerEvent? at hx
    split at hx <;> cases hx <;> rfl
  rw [Shared.drained, Guest.SansIoPeer.drainEvents, List.filterMap_append, hevents,
    List.nil_append, hreads, List.filterMap_filterMap]
  refine List.filterMap_congr fun r _ => ?_
  cases r <;> rfl

/-- The pump's block. -/
theorem Takes.turn {c : Conn} (hL : c.ledger.Inv limit) (h : Takes id c.ledger come late)
    (now : Guest.Instant) :
    Takes id (c.turn limit now).ledger (come ++ c.shared.peer.reads.filterMap (ofRead id))
      (late || late? limit id c (.turn now)) ∧ (c.turn limit now).shared.peer.reads = [] := by
  have hdrain : FlagsKept c.shared c.shared.drain := by
    obtain ⟨hch, -, hf, hcl, -⟩ := c.shared.drain_frame
    exact .of_eq hch hcl hf
  have hL₀ : Ledger.Inv limit { c.ledger with shared := c.shared.drain } := by
    have hnext := @Guest.next_drain limit c.ledger
    rw [← hnext]
    exact hL.next _
  have h₀ : Takes id { c.ledger with shared := c.shared.drain } come late := h.kept hdrain rfl
  have hevents := h₀.events hL₀ c.shared.drained
  rw [drained_messages] at hevents
  have hshared := Guest.foldl_event_shared limit { c.ledger with shared := c.shared.drain }
    c.shared.drained
  have hqueue : (c.shared.drain.applyEvents limit c.shared.drained).peer.reads = [] :=
    (Guest.applyEvents_queues limit c.shared.drain c.shared.drained).2.1
  have hturn : FlagsKept (c.turnLedger limit).shared (c.shared.turn limit) ∧
      (c.shared.turn limit).peer.reads = [] := by
    have hsame : (c.turnLedger limit).shared = c.shared.drain.applyEvents limit c.shared.drained :=
      hshared
    rcases Guest.turn_eq limit c.shared with ht | ht
    · rw [ht, hsame]
      exact ⟨.refl _, hqueue⟩
    · rw [ht, hsame]
      exact ⟨.of_eq rfl rfl rfl, hqueue⟩
  exact ⟨hevents.kept hturn.1 rfl, hturn.2⟩

end

section
variable {limit : Nat} {id : Guest.RTCDataChannelId} {c c' : Conn} {a : Act}

/-- A step that is neither the core's nor the pump's block leaves the core's queue alone. -/
theorem step_reads (h : c.step limit a = some c') (hcore : ∀ es rs ls, a ≠ .core es rs ls)
    (hturn : ∀ now, a ≠ .turn now) : c'.shared.peer.reads = c.shared.peer.reads := by
  cases a with
  | core events reads labels => exact absurd rfl (hcore events reads labels)
  | turn now => exact absurd rfl (hturn now)
  | finish =>
    obtain ⟨-, h⟩ := Option.ite_none_right_eq_some.1 h
    cases h
    rfl
  | createDataChannel label answer =>
    cases answer with
    | error e => cases h; rfl
    | ok id' =>
      obtain ⟨-, h⟩ := Option.ite_none_right_eq_some.1 h
      cases h
      rfl
  | close now =>
    cases h
    simp only [Conn.setShared, Conn.shared, Shared.beginClose]
    split <;> rfl
  | incomingDataChannels | waitConnected => cases h; rfl
  | send | sendViaStream | receive =>
    obtain ⟨-, h⟩ := Option.ite_none_right_eq_some.1 h
    cases h
    rfl
  | receiveViaStream hd =>
    obtain ⟨-, h⟩ := Option.ite_none_right_eq_some.1 h
    cases h
    simp only [Conn.receiveViaStream]
    rcases Guest.receiveViaStream_cases c.shared hd.id with
      ⟨e, hr⟩ | ⟨ch, -, -, -, hr⟩ | ⟨-, -, hr⟩ <;> simp only [hr] <;> rfl
  | poll k now answer =>
    obtain ⟨p, hp, rfl⟩ := Option.map_eq_some_iff.1 h
    obtain ⟨t, -, hp⟩ := Option.bind_eq_some_iff.1 hp
    exact (t.poll_frame hp).core.2.2
  | io k io =>
    obtain ⟨t, -, h⟩ := Option.bind_eq_some_iff.1 h
    obtain ⟨t', -, rfl⟩ := Option.map_eq_some_iff.1 h
    rfl

/-- Only the pump's block applies messages. -/
theorem step_applied (h : c.step limit a = some c') (hturn : ∀ now, a ≠ .turn now) :
    c'.ledger.applied = c.ledger.applied := by
  have heffect := Conn.step_effect h
  generalize c'.ledger = L' at heffect ⊢
  cases heffect with
  | turn hpumps =>
    obtain ⟨now, rfl⟩ := hpumps
    exact absurd rfl (hturn now)
  | watch | peer | sent | popped | finish | beginClose | claim => rfl

end

/-! ### What is returned -/

section
variable {id : Guest.RTCDataChannelId} {s : Shared} {t t' : Task} {k : Guest.TaskId}
  {now : Guest.Instant} {answer : Except String Unit} {p : Polled} {io : Guest.Io}

/-- The task is a feeder of the channel. -/
def Feeds (id : Guest.RTCDataChannelId) (t : Task) : Prop :=
  ∃ before delivered feed, t = .pumpReceive id before delivered feed

/-- A poll that pops from the channel is one of its feeder, which returns nothing yet, or of a
`receive` that returns the message. -/
theorem poll_result (h : t.poll s k now answer = some p) :
    Feeds id p.task ∧ result id p.task = [] ∨
      result id p.task = (ofChannel id p.popped).map Guest.toMessage := by
  unfold Task.poll at h
  split at h
  · obtain ⟨-, h⟩ := Option.ite_none_right_eq_some.1 h
    cases h; exact .inr rfl
  · obtain ⟨-, h⟩ := Option.ite_none_right_eq_some.1 h
    cases h; exact .inr rfl
  · next hd seen =>
    obtain ⟨-, h⟩ := Option.ite_none_right_eq_some.1 h
    cases h
    refine .inr ?_
    rcases Guest.receive_cases s hd.id with ⟨v, hv, hne⟩ | ⟨c, m, -, -, hp, hr⟩
    · rcases v with (e | m) | seen
      · simp [hv, result, Guest.Verdict.call, Guest.Verdict.succeeded]
      · exact absurd rfl (hne m)
      · simp [hv, result, Guest.Verdict.call, Guest.Verdict.succeeded]
    · by_cases hid : hd.id = id
      · subst hid
        simp [hr, hp, result, Guest.Verdict.call, Guest.Verdict.succeeded, Shared.popEntry,
          Guest.ofChannel_self]
      · simp [hr, hp, result, Guest.Verdict.call, Guest.Verdict.succeeded, Shared.popEntry,
          Guest.ofChannel_ne hid, hid]
  · next id' before delivered seen =>
    obtain ⟨-, h⟩ := Option.ite_none_right_eq_some.1 h
    by_cases hid : id' = id
    · subst hid
      simp only at h
      split at h <;> cases h <;> exact .inl ⟨⟨_, _, _, rfl⟩, rfl⟩
    · simp only at h
      split at h <;> cases h <;> simp [result, Guest.ofChannel_ne hid]
  · obtain ⟨-, h⟩ := Option.ite_none_right_eq_some.1 h
    simp only at h
    split at h
    · cases h; exact .inr rfl
    · split at h <;> cases h <;> exact .inr rfl
  · obtain ⟨-, h⟩ := Option.ite_none_right_eq_some.1 h
    cases h; exact .inr rfl
  · cases h

/-- A feeder that is polled stays one. -/
theorem poll_feeds (h : t.poll s k now answer = some p) (ht : Feeds id t) : Feeds id p.task := by
  obtain ⟨before, delivered, feed, rfl⟩ := ht
  cases feed with
  | looping seen =>
    obtain ⟨-, h⟩ := Option.ite_none_right_eq_some.1 h
    simp only at h
    split at h <;> cases h <;> exact ⟨_, _, _, rfl⟩
  | writing | payload | done | dropped => cases h

/-- A stream operation that completes leaves a task a feeder of the channel if it was one. -/
theorem advance_feeds (h : t.advance io = some t') : Feeds id t' ↔ Feeds id t := by
  have hno : ∀ {t : Task}, (∀ id before delivered feed, t ≠ .pumpReceive id before delivered feed) →
      ¬ Feeds id t := by
    rintro t hne ⟨before, delivered, feed, rfl⟩
    exact hne _ _ _ _ rfl
  unfold Task.advance at h
  split at h
  · cases h; exact iff_of_false (hno nofun) (hno nofun)
  · cases h; exact iff_of_false (hno nofun) (hno nofun)
  · obtain ⟨-, h⟩ := Option.ite_none_right_eq_some.1 h
    split at h <;> cases h <;> exact iff_of_false (hno nofun) (hno nofun)
  · cases h; exact ⟨fun ⟨_, _, _, h⟩ => by cases h; exact ⟨_, _, _, rfl⟩,
      fun ⟨_, _, _, h⟩ => by cases h; exact ⟨_, _, _, rfl⟩⟩
  · cases h; exact ⟨fun ⟨_, _, _, h⟩ => by cases h; exact ⟨_, _, _, rfl⟩,
      fun ⟨_, _, _, h⟩ => by cases h; exact ⟨_, _, _, rfl⟩⟩
  · cases h; exact ⟨fun ⟨_, _, _, h⟩ => by cases h; exact ⟨_, _, _, rfl⟩,
      fun ⟨_, _, _, h⟩ => by cases h; exact ⟨_, _, _, rfl⟩⟩
  · cases h; exact iff_of_false (hno nofun) (hno nofun)
  · cases h; exact iff_of_false (hno nofun) (hno nofun)
  · cases h

/-- A stream operation that completes delivers what the feeder had in hand, or nothing. -/
theorem advance_element (h : t.advance io = some t') {before delivered : List InboundMessage}
    {feed : Guest.Feed InboundMessage} (ht : t' = .pumpReceive id before delivered feed) :
    ∃ delivered' feed', t = .pumpReceive id before delivered' feed' ∧
      delivered.map Guest.toMessage = delivered'.map Guest.toMessage ++ element id t io := by
  subst ht
  unfold Task.advance at h
  split at h
  · cases h
  · cases h
  · obtain ⟨-, h⟩ := Option.ite_none_right_eq_some.1 h
    split at h <;> cases h
  · cases h; exact ⟨_, _, rfl, by simp [element]⟩
  · cases h; exact ⟨_, _, rfl, by simp [element]⟩
  · cases h; exact ⟨_, _, rfl, by simp [element]⟩
  all_goals cases h

/-- A task that is no feeder of the channel delivers nothing of it. -/
theorem element_of_not_feeds (h : ¬ Feeds id t) (io : Guest.Io) : element id t io = [] := by
  unfold element
  split
  · next id' before delivered m =>
    exact if_neg fun hid => h ⟨before, delivered, .writing m, by rw [hid]⟩
  · rfl

end

/-- What has been returned is what the feeder's stream delivered, after what was popped before the
claim, or what was popped when there is no feeder. -/
structure Returned (id : Guest.RTCDataChannelId) (c : Conn) (got : List Message) : Prop where
  fed : ∀ (k : Guest.TaskId) before delivered feed,
    c.tasks[k]? = some (.pumpReceive id before delivered feed) →
    got = (before ++ delivered).map Guest.toMessage
  popped : (∀ k, ¬ c.Feeder k id) → got = (ofChannel id c.ledger.popped).map Guest.toMessage

section
variable {limit : Nat} {id : Guest.RTCDataChannelId} {c c' : Conn} {a : Act} {got : List Message}
  {k : Guest.TaskId}

theorem feeder_iff : c.Feeder k id ↔ ∃ t, c.tasks[k]? = some t ∧ Feeds id t := by
  constructor
  · rintro ⟨before, delivered, feed, hk⟩
    exact ⟨_, hk, before, delivered, feed, rfl⟩
  · rintro ⟨t, hk, before, delivered, feed, rfl⟩
    exact ⟨before, delivered, feed, hk⟩

/-- The task that a step has put in place. -/
theorem get_set {t t' : Task} (hk : c.tasks[k]? = some t)
    (htasks : c'.tasks = c.tasks.set k t') : c'.tasks[k]? = some t' := by
  rw [htasks]
  exact List.getElem?_set_self (List.getElem?_eq_some_iff.1 hk).1

/-- With no feeder after a step of a task that stays one if it was one, there was none before. -/
theorem no_feeder_of_set {t t' : Task} (hk : c.tasks[k]? = some t)
    (htasks : c'.tasks = c.tasks.set k t') (hstays : Feeds id t → Feeds id t')
    (hnone : ∀ k, ¬ c'.Feeder k id) : ∀ k, ¬ c.Feeder k id := by
  intro k' hk'
  obtain ⟨t₀, ht₀, hfeeds⟩ := feeder_iff.1 hk'
  refine hnone k' (feeder_iff.2 ?_)
  by_cases hkk : k' = k
  · subst hkk
    obtain rfl := Option.some.inj (hk.symm.trans ht₀)
    exact ⟨t', get_set hk htasks, hstays hfeeds⟩
  · exact ⟨t₀, by rw [htasks, List.getElem?_set_ne (Ne.symm hkk), ht₀], hfeeds⟩

/-- A task is polled. -/
theorem Returned.poll {t : Task} {now : Guest.Instant} {answer : Except String Unit} {p : Polled}
    (hr : Returned id c got) (hf : c.Feeders id) (hk : c.tasks[k]? = some t)
    (hp : t.poll c.shared k now answer = some p) (htasks : c'.tasks = c.tasks.set k p.task)
    (hpopped : c'.ledger.popped = c.ledger.popped ++ p.popped) :
    Returned id c' (got ++ result id p.task) := by
  have hget := get_set hk htasks
  refine ⟨fun k' before delivered feed hk' => ?_, fun hnone => ?_⟩
  · by_cases hkk : k' = k
    · -- the feeder itself, which has delivered nothing
      subst hkk
      have htask := Option.some.inj (hget.symm.trans hk')
      obtain ⟨seen, rfl, -⟩ := Task.poll_feeder hp htask
      rw [htask, hr.fed k' before delivered _ hk]
      exact List.append_nil _
    · rw [htasks, List.getElem?_set_ne (Ne.symm hkk)] at hk'
      have hpops : ofChannel id p.popped = [] := by
        simpa [Guest.ofChannel_append] using hf.pops_none hk hp hkk ⟨_, _, _, hk'⟩
      have hnil : result id p.task = [] := by
        obtain ⟨-, hnil⟩ | hres := @poll_result id _ _ _ _ _ _ hp
        · exact hnil
        · rw [hres, hpops]
          rfl
      rw [hnil, List.append_nil]
      exact hr.fed k' before delivered feed hk'
  · have hbefore := no_feeder_of_set hk htasks (poll_feeds hp) hnone
    have hres : result id p.task = (ofChannel id p.popped).map Guest.toMessage := by
      obtain ⟨hfeeds, -⟩ | hres := @poll_result id _ _ _ _ _ _ hp
      · exact absurd (feeder_iff.2 ⟨p.task, hget, hfeeds⟩) (hnone k)
      · exact hres
    rw [hres, hr.popped hbefore, hpopped, Guest.ofChannel_append, List.map_append]

/-- A stream operation of a task completes. -/
theorem Returned.advance {t t' : Task} {io : Guest.Io} (hr : Returned id c got)
    (hf : c.Feeders id) (hk : c.tasks[k]? = some t) (ha : t.advance io = some t')
    (htasks : c'.tasks = c.tasks.set k t') (hledger : c'.ledger = c.ledger) :
    Returned id c' (got ++ element id t io) := by
  have hget := get_set hk htasks
  refine ⟨fun k' before delivered feed hk' => ?_, fun hnone => ?_⟩
  · by_cases hkk : k' = k
    · subst hkk
      obtain ⟨delivered', feed', rfl, hmap⟩ :=
        advance_element ha (Option.some.inj (hget.symm.trans hk'))
      rw [hr.fed k' before delivered' feed' hk, List.map_append, List.map_append, hmap,
        List.append_assoc]
    · rw [htasks, List.getElem?_set_ne (Ne.symm hkk)] at hk'
      have hno : ¬ Feeds id t := fun hfeeds =>
        hkk (hf.unique k k' (feeder_iff.2 ⟨t, hk, hfeeds⟩) ⟨_, _, _, hk'⟩)
      rw [element_of_not_feeds hno, List.append_nil]
      exact hr.fed k' before delivered feed hk'
  · have hbefore := no_feeder_of_set hk htasks (advance_feeds ha).2 hnone
    have hno : ¬ Feeds id t := fun hfeeds => hbefore k (feeder_iff.2 ⟨t, hk, hfeeds⟩)
    rw [element_of_not_feeds hno, List.append_nil, hledger]
    exact hr.popped hbefore

/-- A step that neither polls a task nor completes a stream operation may start a task. -/
theorem Returned.grown {new : Option Task} (hr : Returned id c got) (hf : c.Feeders id)
    (htracked : (c.shared.channel? id).isSome = true) (htasks : c'.tasks = c.tasks ++ new.toList)
    (hnew : ∀ t, new = some t → Conn.Spawned c a c' t)
    (hpopped : c'.ledger.popped = c.ledger.popped) : Returned id c' got := by
  refine ⟨fun k before delivered feed hk => ?_, fun hnone => ?_⟩
  · rw [htasks, List.getElem?_append] at hk
    split at hk
    · exact hr.fed k before delivered feed hk
    · have hmem := Option.mem_toList.1 (List.mem_of_getElem? hk)
      obtain ⟨rfl, rfl, -, hd, -, rfl, hok, -⟩ := hnew _ hmem
      rw [List.append_nil]
      exact hr.popped (hf.claim (.inl htracked) hok).1
  · rw [hpopped]
    refine hr.popped fun k hk => hnone k ?_
    obtain ⟨before, delivered, feed, hk⟩ := hk
    refine ⟨before, delivered, feed, ?_⟩
    rw [htasks, List.getElem?_append_left (List.getElem?_eq_some_iff.1 hk).1, hk]

/-- A step returns the messages that it shows. -/
theorem Returned.step (hr : Returned id c got) (hf : c.Feeders id)
    (htracked : (c.shared.channel? id).isSome = true) (h : c.step limit a = some c') :
    Returned id c' (got ++ returned id c c' a) := by
  have hgrows : (∀ k now answer, a ≠ .poll k now answer) → (∀ k io, a ≠ .io k io) →
      returned id c c' a = [] → Returned id c' (got ++ returned id c c' a) := by
    intro hpoll hio hnil
    obtain ⟨new, htasks, hnew, hpopped⟩ := Conn.step_grows h hpoll hio
    rw [hnil, List.append_nil]
    exact hr.grown hf htracked htasks hnew hpopped
  cases a with
  | poll k now answer =>
    obtain ⟨p, hp, rfl⟩ := Option.map_eq_some_iff.1 h
    obtain ⟨t, hk, hp⟩ := Option.bind_eq_some_iff.1 hp
    have hget : (c.tasks.set k p.task)[k]? = some p.task :=
      List.getElem?_set_self (List.getElem?_eq_some_iff.1 hk).1
    simp only [returned, hget, Option.elim_some]
    exact hr.poll hf hk hp rfl rfl
  | io k io =>
    obtain ⟨t, hk, h⟩ := Option.bind_eq_some_iff.1 h
    obtain ⟨t', ht, rfl⟩ := Option.map_eq_some_iff.1 h
    simp only [returned, hk, Option.elim_some]
    exact hr.advance hf hk ht rfl rfl
  | core | turn | finish | createDataChannel | incomingDataChannels | close | send
  | sendViaStream | receive | receiveViaStream | waitConnected =>
    exact hgrows (fun _ _ _ h => by cases h) (fun _ _ h => by cases h) rfl

end

/-! ### The invariant -/

/-- What came to the channel and what the core has queued for it is what arrived, and what was
popped is returned but for what a feeder has in hand. -/
structure Inv (limit : Nat) (id : Guest.RTCDataChannelId) (s : GuestSink) (ms : List Message) :
    Prop where
  ledger : s.conn.ledger.Inv limit
  feeders : s.conn.Feeders id
  come : ∃ come, Takes id s.conn.ledger come s.late ∧
    ms.map inbound = come ++ s.conn.shared.peer.reads.filterMap (ofRead id)
  returned : Returned id s.conn s.got

section
variable {limit : Nat} {id : Guest.RTCDataChannelId} {s s' : GuestSink} {ms : List Message}
  {m : Message} {a : Act} {conn : Conn} {label : String}

theorem opened_run (limit : Nat) (id : Guest.RTCDataChannelId) (label : String) :
    Runs.run (Conn.step limit) .bound (opening id label) = some (opened limit id label) := rfl

/-- Opening tracks the channel. -/
theorem opened_channel (limit : Nat) (id : Guest.RTCDataChannelId) (label : String) :
    ∃ c, (opened limit id label).shared.channel? id = some c := by
  obtain ⟨s, hevents, hnone, hturn⟩ : ∃ s : Shared,
      s.drained = [.channelOpen id (s.peer.label id)] ∧ s.drain.channels = [] ∧
        (opened limit id label).shared = s.turn limit :=
    ⟨((Runs.run (Conn.step limit) .bound ((opening id label).take 2)).getD .bound).shared,
      rfl, rfl, rfl⟩
  have hopen : ∃ c, (s.drain.applyEvents limit s.drained).channel? id = some c := by
    simp [hevents, hnone, Shared.applyEvents, Shared.applyEvent, Shared.channel?, Keyed.find?,
      Channel.new]
  obtain h | h := Guest.turn_eq limit s <;> rw [hturn, h] <;> exact hopen

theorem inv_opened : Inv limit id ⟨opened limit id label, [], false⟩ [] := by
  have hnil : (opened limit id label).tasks = [] := rfl
  refine ⟨?_, Conn.feeders_nil hnil id, ⟨[], ⟨List.prefix_rfl, ?_⟩, rfl⟩, ?_⟩
  · obtain ⟨bs, hbs⟩ := Conn.run_ledger (opened_run limit id label)
    exact (Conn.Start.inv (.inl rfl)).run hbs
  · obtain ⟨c, hc⟩ := opened_channel limit id label
    exact ⟨c, hc, .inl rfl⟩
  · refine ⟨fun k _ _ _ hk => ?_, fun _ => rfl⟩
    rw [hnil] at hk
    cases hk

/-- What a step keeps, whatever arrives. -/
theorem Inv.moved (hi : Inv limit id s ms) (h : s.conn.step limit a = some conn) :
    conn.ledger.Inv limit ∧ conn.Feeders id ∧
      Returned id conn (s.got ++ GuestSink.returned id s.conn conn a) := by
  obtain ⟨come, ⟨-, c, hc, -⟩, -⟩ := hi.come
  have htracked : (s.conn.shared.channel? id).isSome = true := by rw [hc]; rfl
  obtain ⟨bs, hbs⟩ := (Conn.step_effect h).run
  refine ⟨hi.ledger.run hbs, hi.feeders.step ?_ h, hi.returned.step hi.feeders htracked h⟩
  rintro hd - rfl
  exact .inl htracked

theorem Inv.arrive (hi : Inv limit id s ms) (h : step limit id s (arrival id m) = some s') :
    Inv limit id s' (ms ++ [m]) := by
  obtain ⟨conn, hs, rfl⟩ := Option.map_eq_some_iff.1 h
  obtain ⟨hledger, hfeeders, hreturned⟩ := hi.moved hs
  obtain ⟨come, htakes, hms⟩ := hi.come
  refine ⟨hledger, hfeeders, ⟨come, ?_, ?_⟩, hreturned⟩
  · cases hs
    simp only [arrival, late?, Bool.or_false]
    exact htakes.kept (.of_eq rfl rfl rfl) rfl
  · cases hs
    show (ms ++ [m]).map inbound = come ++ (s.conn.shared.peer.reads ++ _).filterMap (ofRead id)
    rw [List.map_append, hms, List.filterMap_append, List.append_assoc]
    simp [ofRead]

theorem Inv.quiet (hi : Inv limit id s ms) (ha : arrives id a = false)
    (h : step limit id s a = some s') : Inv limit id s' ms := by
  obtain ⟨conn, hs, rfl⟩ := Option.map_eq_some_iff.1 h
  obtain ⟨hledger, hfeeders, hreturned⟩ := hi.moved hs
  refine ⟨hledger, hfeeders, ?_, hreturned⟩
  obtain ⟨come, htakes, hms⟩ := hi.come
  by_cases hturn : ∃ now, a = .turn now
  · obtain ⟨now, rfl⟩ := hturn
    obtain ⟨-, hs⟩ := Option.ite_none_right_eq_some.1 hs
    cases hs
    obtain ⟨hnext, hnil⟩ := htakes.turn hi.ledger now
    refine ⟨_, hnext, ?_⟩
    rw [hnil, List.filterMap_nil, List.append_nil]
    exact hms
  · have hturn : ∀ now, a ≠ .turn now := fun now he => hturn ⟨now, he⟩
    have hlate : late? limit id s.conn a = false := by
      cases a with
      | turn now => exact absurd rfl (hturn now)
      | core | finish | createDataChannel | incomingDataChannels | close | send | sendViaStream
      | receive | receiveViaStream | waitConnected | poll | io => rfl
    rw [hlate, Bool.or_false]
    refine ⟨come, htakes.kept (Conn.step_effect hs).flagsKept ?_, ?_⟩
    · rw [step_applied hs hturn]
    · rw [hms]
      by_cases hcore : ∃ es rs ls, a = .core es rs ls
      · obtain ⟨es, rs, ls, rfl⟩ := hcore
        have hnil : rs.filterMap (ofRead id) = [] := by simpa [arrives] using ha
        cases hs
        show come ++ _ = come ++ (s.conn.shared.peer.reads ++ rs).filterMap (ofRead id)
        rw [List.filterMap_append, hnil, List.append_nil]
      · rw [step_reads hs (fun es rs ls he => hcore ⟨es, rs, ls, he⟩) hturn]

/-- What was popped is what has been returned, and what a feeder has in hand. -/
theorem Inv.popped (hi : Inv limit id s ms) :
    ∃ hand, s.got ++ hand.map Guest.toMessage =
        (ofChannel id s.conn.ledger.popped).map Guest.toMessage ∧
      (hand = [] ∨ ∃ t ∈ s.conn.tasks, inHand id t = hand) := by
  by_cases hf : ∃ k, s.conn.Feeder k id
  · obtain ⟨k, before, delivered, feed, hk⟩ := hf
    refine ⟨feed.inHand, ?_, .inr ⟨_, List.mem_of_getElem? hk, if_pos rfl⟩⟩
    rw [hi.returned.fed k before delivered feed hk,
      (hi.feeders.held k before delivered feed hk).popped, ← List.map_append]
  · refine ⟨[], ?_, .inl rfl⟩
    rw [List.map_nil, List.append_nil]
    exact hi.returned.popped fun k hk => hf ⟨k, hk⟩

/-- What arrived is read as it was sent. -/
theorem read_inbound (ms : List Message) : (ms.map inbound).map Guest.toMessage = ms := by
  rw [List.map_map]
  exact (List.map_congr_left fun m _ => toMessage_inbound m).trans (List.map_id ms)

/-- What has been returned is what arrived, in order, and all of it in a clear state. -/
theorem Inv.faithful (hi : Inv limit id s ms) :
    s.got <+: ms ∧ (Clear id s → s.got = ms) := by
  obtain ⟨hand, hgot, hhand⟩ := hi.popped
  obtain ⟨come, htakes, hms⟩ := hi.come
  obtain ⟨c, hc, hor⟩ := htakes.channel
  obtain ⟨q, hq⟩ := (hi.ledger.entry id).1 c hc
  have hlog : ofChannel id s.conn.ledger.popped ++ c.inbox =
      ofChannel id s.conn.ledger.applied := by
    rw [hq.taken, hq.held, hq.applied]
    rfl
  refine ⟨?_, fun hclear => ?_⟩
  · have hpopped : ofChannel id s.conn.ledger.popped <+: ms.map inbound := by
      rw [hms]
      refine List.IsPrefix.trans ⟨c.inbox, hlog⟩ ?_
      exact htakes.applied.trans (List.prefix_append _ _)
    rw [← read_inbound ms]
    refine (List.prefix_append _ (hand.map Guest.toMessage)).trans ?_
    rw [hgot]
    exact hpopped.map _
  · obtain ⟨c', hc', hover, hempty⟩ := hclear.inbox
    rw [hc] at hc'
    cases hc'
    have hnone : hand = [] := by
      obtain hnil | ⟨t, ht, hin⟩ := hhand
      · exact hnil
      · exact hin.symm.trans (hclear.hands t ht)
    have hall : ofChannel id s.conn.ledger.applied = come := by
      refine hor.resolve_right fun ⟨_, hdropped⟩ => ?_
      rw [hclear.late, hover] at hdropped
      obtain h | h := hdropped <;> cases h
    rw [hnone, List.map_nil, List.append_nil] at hgot
    rw [hempty, List.append_nil, hall] at hlog
    rw [hclear.reads, List.append_nil] at hms
    rw [hgot, hlog, ← hms, read_inbound]

end

end GuestSink

/-- The inbound queue of a channel of the in-guest provider. -/
def guestSink (limit : Nat) (id : Guest.RTCDataChannelId) (label : String) :
    Sink Message (Except Error Message) where
  State := GuestSink
  Act := Guest.Act
  start := ⟨GuestSink.opened limit id label, [], false⟩
  step := GuestSink.step limit id
  arrive := GuestSink.arrival id
  arrives := GuestSink.arrives id
  read := .ok
  got s := s.got.map .ok
  Clear := GuestSink.Clear id
  Inv := GuestSink.Inv limit id
  inv_start := GuestSink.inv_opened
  inv_arrive _ _ _ _ hi h := hi.arrive h
  inv_quiet _ _ _ _ hi ha h := hi.quiet ha h
  faithful s ms hi := by
    obtain ⟨hpre, hall⟩ := hi.faithful
    exact ⟨hpre.map _, fun hclear => congrArg (List.map Except.ok) (hall hclear)⟩

/-! ## The browser-first host receives -/

namespace JcoSink

open Jco (DataChannel Act Data Promise)

/-- The data with which a message arrives. -/
def data : Message → Data
  | .string text => .text text
  | .binary bytes => .buffer bytes

/-- The step with which a message arrives. -/
def arrives : Act → Bool
  | .message _ => true
  | _ => false

/-- The message that a promise was resolved with. -/
def resolution (p : Promise) : Option Message :=
  match p.outcome with
  | some (.ok m) => some m
  | _ => none

/-- What arrived is accepted, up to an overflow. -/
structure Inv (s : DataChannel) (ms : List Message) : Prop where
  queue : Jco.Inv s
  accepted : s.accepted <+: ms
  all : s.overflowed = false → s.accepted = ms

variable {s s' : DataChannel} {ms : List Message} {a : Act} {m : Message}

theorem Inv.quiet (hi : Inv s ms) (ha : arrives a = false) (h : s.step a = some s') :
    Inv s' ms := by
  have hnone : a.arrival? = none := by
    cases a with
    | message => cases ha
    | close | error | receive | receiveViaStream | pull => rfl
  obtain ⟨-, ho, hacc⟩ | ⟨m, hm, -⟩ | ⟨m, hm, -⟩ := Jco.step_accepted h
  · exact ⟨hi.queue.step h, hacc ▸ hi.accepted, by rw [ho, hacc]; exact hi.all⟩
  · rw [hnone] at hm; cases hm
  · rw [hnone] at hm; cases hm

theorem Inv.arrive (hi : Inv s ms) (h : s.step (.message (data m)) = some s') :
    Inv s' (ms ++ [m]) := by
  have harr : (Act.message (data m)).arrival? = some m := by cases m <;> rfl
  obtain ⟨hm, -⟩ | ⟨m', hm, ho, -, hacc⟩ | ⟨m', hm, ho, hacc⟩ := Jco.step_accepted h
  · rw [harr] at hm; cases hm
  · rw [harr] at hm
    cases hm
    rw [hi.all ho] at hacc
    exact ⟨hi.queue.step h, hacc ▸ List.prefix_rfl, fun _ => hacc⟩
  · refine ⟨hi.queue.step h, hacc ▸ hi.accepted.trans (List.prefix_append _ _), fun hno => ?_⟩
    rw [ho] at hno
    cases hno

/-- The promises in the order of their calls are resolved with the messages that were given. -/
theorem resolutions {q : Handoff.Queue Message} (hq : Jco.Refines s q) :
    s.promises.filterMap resolution = q.given.map Prod.snd := by
  refine Entries.filterMap_eq_of_numbered resolution q.given_ordered fun id m => ?_
  refine (hq.given id m).trans ⟨?_, ?_⟩
  · rintro ⟨consumer, hp⟩
    exact ⟨_, hp, rfl⟩
  · rintro ⟨⟨consumer, outcome⟩, hp, hr⟩
    cases outcome with
    | none => cases hr
    | some r =>
      cases r with
      | error e => cases hr
      | ok m' =>
        cases hr
        exact ⟨consumer, hp⟩

end JcoSink

/-- The inbound queue of the browser-first host. -/
def jcoSink (limit : Jco.Number) : Sink Message (Except Error Message) where
  State := Jco.DataChannel
  Act := Jco.Act
  start := .start limit
  step := Jco.DataChannel.step
  arrive m := .message (JcoSink.data m)
  arrives := JcoSink.arrives
  read := .ok
  got s := (s.promises.filterMap JcoSink.resolution).map .ok
  Clear s := s.overflowed = false ∧ s.messages = []
  Inv := JcoSink.Inv
  inv_start := ⟨Jco.inv_start limit, List.prefix_rfl, fun _ => rfl⟩
  inv_arrive _ _ _ _ hi h := hi.arrive h
  inv_quiet _ _ _ _ hi ha h := hi.quiet ha h
  faithful s ms hi := by
    obtain ⟨q, hq⟩ := hi.queue.refines
    have hlog :
        s.promises.filterMap JcoSink.resolution ++ s.messages.map Prod.fst = s.accepted := by
      rw [JcoSink.resolutions hq, hq.accepted, ← hq.held]
      rfl
    constructor
    · refine List.IsPrefix.map _ ((List.prefix_append _ (s.messages.map Prod.fst)).trans ?_)
      rw [hlog]
      exact hi.accepted
    · rintro ⟨hopen, hempty⟩
      rw [hempty, List.map_nil, List.append_nil, hi.all hopen] at hlog
      rw [hlog]

end WebrtcDatachannels.Contract
