import WebrtcDatachannels.Guest.Closed

/-!
# Draining the core's two queues

The core queues what happens in two queues, events and messages; `drain_events` concatenates them,
every event before every message, and `apply_event` drops the messages of a closed channel. An
`Intake` runs a history of happenings through these, cut into drains in any way, with pops in
between and no local close. Beside it, `due` is what the history owes each channel: a bounded log
that is offered the messages received before the channel's end, in the order they were received
(`owed`). What the readers get is what is due along a run exactly when no drain that ends a channel,
or comes after one, still holds a message that is due to it and fits (`no_message_lost_iff`).
-/

namespace WebrtcDatachannels.Guest

open BoundedLog

/-- Something that happened inside the core. -/
inductive Happening where
  | channelOpen (id : RTCDataChannelId)
  | message (id : RTCDataChannelId) (isString : Bool) (data : Bytes)
  | channelClose (id : RTCDataChannelId)
  | stateChange (state : RTCPeerConnectionState)
deriving DecidableEq, Repr

/-- What `poll_event` returns for a happening. -/
def Happening.event? : Happening → Option RTCPeerConnectionEvent
  | .channelOpen id => some (.onDataChannel (.onOpen id))
  | .channelClose id => some (.onDataChannel (.onClose id))
  | .stateChange state => some (.onConnectionStateChangeEvent state)
  | .message _ _ _ => none

/-- What `poll_read` returns for a happening. -/
def Happening.read? : Happening → Option RTCMessage
  | .message id isString data => some (.dataChannelMessage id isString data)
  | _ => none

/-- The message of a happening on a channel. -/
def Happening.on (id : RTCDataChannelId) : Happening → List InboundMessage
  | .message id' isString data => if id' = id then [⟨isString, data⟩] else []
  | _ => []

/-! ## The end of a channel -/

/-- What a history says of a channel: it opened, and it is over. -/
structure Fate where
  opened : Bool
  ended : Bool
deriving DecidableEq, Repr

/-- A channel is over with its close or with a connection state that `ends` it. -/
def Fate.next (ends : RTCPeerConnectionState → Bool) (id : RTCDataChannelId) (f : Fate) :
    Happening → Fate
  | .channelOpen id' => if id' = id then { f with opened := true } else f
  | .channelClose id' => if id' = id then { f with ended := f.ended || f.opened } else f
  | .stateChange state => if ends state then { f with ended := true } else f
  | .message _ _ _ => f

/-- The fate of a channel after a history. -/
def fate (ends : RTCPeerConnectionState → Bool) (id : RTCDataChannelId) (hs : List Happening) :
    Fate :=
  hs.foldl (Fate.next ends id) ⟨false, false⟩

/-- The states that end a connection. -/
def endsConnection : RTCPeerConnectionState → Bool
  | .failed | .closed => true
  | _ => false

/-- The states that `drain_events` takes for an end. -/
def drainsEnd : RTCPeerConnectionState → Bool
  | .failed | .closed | .disconnected => true
  | _ => false

/-- The messages of a history on a channel that is not over when they are received. -/
def owed (id : RTCDataChannelId) : Fate → List Happening → List InboundMessage
  | _, [] => []
  | f, h :: hs => (if f.ended then [] else h.on id) ++ owed id (f.next endsConnection id h) hs

/-! ## The system -/

/-- The shared state under a history of happenings: those drained so far and those queued since, the
messages popped, and what the history owes each channel. -/
structure Intake (limit : Nat) where
  shared : Shared
  popped : List (RTCDataChannelId × InboundMessage)
  past : List Happening
  queued : List Happening
  due : RTCDataChannelId → Log InboundMessage.len limit

/-- The core queues a happening, the pump drains, a reader pops. -/
inductive IntakeAct where
  | happen (h : Happening)
  | drain
  | pop (id : RTCDataChannelId)
deriving DecidableEq, Repr

/-- The messages buffered for a channel. -/
def Shared.inbox (s : Shared) (id : RTCDataChannelId) : List InboundMessage :=
  ((s.channel? id).map Channel.inbox).getD []

namespace Intake

variable {limit : Nat}

/-- A freshly bound connection. -/
def start : Intake limit :=
  { shared := .bind .answerer, popped := [], past := [], queued := [], due := fun _ => .empty }

/-- A message happens on a channel that has opened. -/
def Ordered (s : Intake limit) : Happening → Prop
  | .message id _ _ => .channelOpen id ∈ s.past ++ s.queued
  | _ => True

instance (s : Intake limit) (h : Happening) : Decidable (s.Ordered h) := by
  cases h <;> unfold Ordered <;> infer_instance

/-- One step. -/
def step (s : Intake limit) : IntakeAct → Option (Intake limit)
  | .happen h =>
    if s.Ordered h then
      some
        { s with
          shared :=
            { s.shared with
              peer :=
                { s.shared.peer with
                  events := s.shared.peer.events ++ h.event?.toList
                  reads := s.shared.peer.reads ++ h.read?.toList } }
          queued := s.queued ++ [h] }
    else none
  | .drain =>
    some
      { s with
        shared := s.shared.turn limit
        past := s.past ++ s.queued
        queued := []
        due := fun id =>
          (s.due id).applyAll ((owed id (fate endsConnection id s.past) s.queued).map .offer) }
  | .pop id =>
    some
      { s with
        shared := (s.shared.popChannel id).2
        popped := s.popped ++ s.shared.popEntry id
        due := fun id' => if id' = id then (s.due id).take else s.due id' }

/-- Every channel's readers got, or will get from its inbox, exactly what is due to it. -/
def Delivered (s : Intake limit) : Prop :=
  ∀ id, ofChannel id s.popped ++ s.shared.inbox id = (s.due id).accepted

/-- A drain that holds an end of the channel, or comes after one, holds no message that is due to
the channel and fits. -/
def EndsAlone (s : Intake limit) : IntakeAct → Prop
  | .drain =>
    ∀ id, (fate drainsEnd id (s.past ++ s.queued)).ended = true →
      ∀ m ms, owed id (fate endsConnection id s.past) s.queued = m :: ms → ¬ (s.due id).Admits m
  | _ => True

end Intake

/-! ## Fates -/

section
variable {ends : RTCPeerConnectionState → Bool} {id : RTCDataChannelId} {f : Fate}

theorem fate_append (hs hs' : List Happening) :
    fate ends id (hs ++ hs') = hs'.foldl (Fate.next ends id) (fate ends id hs) := by
  simp [fate]

/-- What is over stays over. -/
theorem Fate.ended_next (h : Happening) (ho : f.ended = true) :
    (f.next ends id h).ended = true := by
  cases h with
  | channelOpen id' => simp only [Fate.next]; split <;> exact ho
  | message => exact ho
  | channelClose id' => simp only [Fate.next]; split <;> simp [ho]
  | stateChange state => simp only [Fate.next]; split <;> simp [ho]

theorem Fate.ended_foldl (ends : RTCPeerConnectionState → Bool) (id : RTCDataChannelId)
    (hs : List Happening) (ho : f.ended = true) :
    (hs.foldl (Fate.next ends id) f).ended = true := by
  induction hs generalizing f with
  | nil => exact ho
  | cons h hs ih => exact ih (f.ended_next h ho)

/-- What ends a connection is taken for an end. -/
theorem fate_le (id : RTCDataChannelId) {f g : Fate} (hopen : f.opened = g.opened)
    (hended : f.ended = true → g.ended = true) (hs : List Happening) :
    (hs.foldl (Fate.next endsConnection id) f).opened =
        (hs.foldl (Fate.next drainsEnd id) g).opened ∧
      ((hs.foldl (Fate.next endsConnection id) f).ended = true →
        (hs.foldl (Fate.next drainsEnd id) g).ended = true) := by
  induction hs generalizing f g with
  | nil => exact ⟨hopen, hended⟩
  | cons h hs ih =>
    refine ih ?_ ?_
    · cases h with
      | channelOpen id' => simp only [Fate.next]; split <;> simp [hopen]
      | message => exact hopen
      | channelClose id' => simp only [Fate.next]; split <;> exact hopen
      | stateChange state =>
        cases state <;> simp [Fate.next, endsConnection, drainsEnd, hopen]
    · cases h with
      | channelOpen id' => simp only [Fate.next]; split <;> exact hended
      | message => exact hended
      | channelClose id' =>
        simp only [Fate.next]
        split
        · simp only [Bool.or_eq_true, hopen]
          exact fun h => h.imp_left hended
        · exact hended
      | stateChange state =>
        cases state <;> simp [Fate.next, endsConnection, drainsEnd] <;> exact hended

/-- While nothing that is taken for an end has happened, every message of the channel is due. -/
theorem owed_of_not_over {f : Fate} (hs : List Happening)
    (h : (hs.foldl (Fate.next endsConnection id) f).ended = false) :
    owed id f hs = hs.flatMap (Happening.on id) := by
  induction hs generalizing f with
  | nil => rfl
  | cons x hs ih =>
    have hf : f.ended = false := by
      by_contra hf
      have := Fate.ended_foldl endsConnection id (x :: hs) (eq_true_of_ne_false hf)
      rw [h] at this
      cases this
    rw [owed, hf, ih h, List.flatMap_cons]
    rfl

/-- A channel is opened by a history that holds its open. -/
theorem fate_opened {hs : List Happening} (h : .channelOpen id ∈ hs) :
    (fate ends id hs).opened = true := by
  have hkeep : ∀ (hs : List Happening) (f : Fate), f.opened = true →
      (hs.foldl (Fate.next ends id) f).opened = true := by
    intro hs
    induction hs with
    | nil => exact fun _ hf => hf
    | cons x hs ih =>
      refine fun f hf => ih _ ?_
      cases x with
      | message => exact hf
      | channelOpen id' | channelClose id' | stateChange state =>
        simp only [Fate.next]; split <;> simp [hf]
  obtain ⟨pre, post, rfl⟩ := List.append_of_mem h
  rw [fate, List.foldl_append, List.foldl_cons]
  exact hkeep post _ (by simp [Fate.next])

end

/-! ## The events of a drain -/

section
variable {limit : Nat} {s : Shared} {id : RTCDataChannelId} {f : Fate}
  {q : Log InboundMessage.len limit}

/-- The record of a channel, or its absence, agrees with what a history says of the channel. -/
structure Agrees (s : Shared) (id : RTCDataChannelId) (f : Fate) : Prop where
  untracked : s.channel? id = none → f.opened = false ∧ s.dead = f.ended
  tracked : ∀ c, s.channel? id = some c → f.opened = true ∧ (f.ended = true → c.closed = true) ∧
    (f.ended = false → c.closed = c.overflowed)

/-- The buffered messages of a channel are the ones a log holds. -/
structure Mirrors (s : Shared) (id : RTCDataChannelId) (q : Log InboundMessage.len limit) :
    Prop where
  inbox : s.inbox id = q.held
  bytes : ∀ c, s.channel? id = some c → c.inboxBytes = load InboundMessage.len q.held

/-- A log is shut when the channel has overflowed. -/
def ShutWith (s : Shared) (id : RTCDataChannelId) (q : Log InboundMessage.len limit) : Prop :=
  q.shut = ((s.channel? id).map Channel.overflowed).getD false

/-- Both read the record of the channel and the connection's flags only. -/
theorem Agrees.of_eq {s' : Shared} (h : Agrees s id f) (hc : s'.channel? id = s.channel? id)
    (hd : s'.dead = s.dead) : Agrees s' id f :=
  ⟨fun hn => hd ▸ h.untracked (hc ▸ hn), fun c hs => h.tracked c (hc ▸ hs)⟩

theorem Mirrors.of_eq {s' : Shared} (h : Mirrors s id q) (hc : s'.channel? id = s.channel? id) :
    Mirrors s' id q :=
  ⟨by rw [Shared.inbox, hc]; exact h.inbox, fun c hs => h.bytes c (hc ▸ hs)⟩

/-- A record rewritten by an update that keeps its inbox. -/
theorem Mirrors.map {s' : Shared} {g : Channel → Channel} (h : Mirrors s id q)
    (hc : s'.channel? id = (s.channel? id).map g)
    (hg : ∀ c, (g c).inbox = c.inbox ∧ (g c).inboxBytes = c.inboxBytes) : Mirrors s' id q := by
  refine ⟨?_, ?_⟩
  · rw [← h.inbox, Shared.inbox, Shared.inbox, hc, Option.map_map]
    congr 2
    funext c
    exact (hg c).1
  · intro c hs
    rw [hc, Option.map_eq_some_iff] at hs
    obtain ⟨c₀, h₀, rfl⟩ := hs
    rw [(hg c₀).2]
    exact h.bytes c₀ h₀

/-- A record rewritten by an update that keeps its overflow flag. -/
theorem ShutWith.map {s' : Shared} {g : Channel → Channel} (h : ShutWith s id q)
    (hc : s'.channel? id = (s.channel? id).map g) (hg : ∀ c, (g c).overflowed = c.overflowed) :
    ShutWith s' id q := by
  rw [ShutWith, hc, Option.map_map, h]
  congr 2
  funext c
  exact (hg c).symm

/-- The ended connection's channels are closed. -/
theorem Agrees.closeChannels (h : Agrees s id f) {s' : Shared}
    (hc : s'.channels = s.channels.map Channel.close) (hd : s'.dead = true) :
    Agrees s' id { f with ended := true } := by
  have hch : s'.channel? id = (s.channel? id).map Channel.close := by
    rw [Shared.channel?, hc]
    exact s.channel?_closeChannels id
  refine ⟨?_, ?_⟩
  · intro hn
    rw [hch, Option.map_eq_none_iff] at hn
    exact ⟨(h.untracked hn).1, hd⟩
  · intro c hs
    rw [hch, Option.map_eq_some_iff] at hs
    obtain ⟨c₀, h₀, rfl⟩ := hs
    refine ⟨(h.tracked c₀ h₀).1, fun _ => rfl, ?_⟩
    intro hended
    cases hended

/-- An open tracks its channel, unless it is tracked, and leaves the others alone. -/
theorem channel?_open (limit : Nat) (s : Shared) (id : RTCDataChannelId) (label : String) :
    (s.applyEvent limit (.channelOpen id label)).channel? id =
        some ((s.channel? id).getD { Channel.new id label with closed := s.dead }) ∧
      (∀ id' ≠ id, (s.applyEvent limit (.channelOpen id label)).channel? id' = s.channel? id') ∧
      (s.applyEvent limit (.channelOpen id label)).dead = s.dead := by
  have hframe := (applyEvent_frame limit s (.channelOpen id label)).1
  refine ⟨?_, fun id' hne => hframe id id' rfl hne, ?_⟩
  · cases hc : s.channel? id with
    | some c => simp [Shared.applyEvent, hc]
    | none =>
      rw [Shared.channel?] at hc
      simp only [Shared.applyEvent, Shared.channel?, hc]
      rw [Keyed.find?_concat, hc]
      simp [Channel.new, Shared.dead]
  · simp only [Shared.applyEvent]
    split <;> rfl

/-- What leaves the record of the channel and the connection's flags leaves the rest. -/
theorem Agrees.frame {s' : Shared} (h : Agrees s id f) (hm : Mirrors s id q)
    (hc : s'.channel? id = s.channel? id) (hd : s'.dead = s.dead) :
    Agrees s' id f ∧ Mirrors s' id q ∧ (ShutWith s id q → ShutWith s' id q) := by
  refine ⟨h.of_eq hc hd, hm.of_eq hc, ?_⟩
  intro hq
  rw [ShutWith, hc]
  exact hq

/-- An open of the channel tracks it, closed if the connection has ended. -/
theorem Agrees.opened (h : Agrees s id f) (hm : Mirrors s id q) (label : String) :
    Agrees (s.applyEvent limit (.channelOpen id label)) id { f with opened := true } ∧
      Mirrors (s.applyEvent limit (.channelOpen id label)) id q ∧
      (ShutWith s id q → ShutWith (s.applyEvent limit (.channelOpen id label)) id q) := by
  obtain ⟨hself, -, hdead⟩ := channel?_open limit s id label
  cases hc : s.channel? id with
  | some c =>
    rw [hc] at hself
    have hf : { f with opened := true } = f := by rw [← (h.tracked c hc).1]
    rw [hf]
    exact h.frame hm (hself.trans hc.symm) hdead
  | none =>
    rw [hc] at hself
    obtain ⟨-, hd⟩ := h.untracked hc
    have hq : q.held = [] := by rw [← hm.inbox, Shared.inbox, hc]; rfl
    refine ⟨⟨?_, ?_⟩, ⟨?_, ?_⟩, ?_⟩
    · intro hn
      rw [hself] at hn; cases hn
    · intro c hs
      rw [hself] at hs
      cases hs
      exact ⟨rfl, fun ho => hd.trans ho, fun ho => hd.trans ho⟩
    · rw [Shared.inbox, hself, hq]; rfl
    · intro c hs
      rw [hself] at hs
      cases hs
      rw [hq]; rfl
    · intro hsh
      rw [ShutWith, hc] at hsh
      rw [ShutWith, hself, hsh]; rfl

/-- A close of the channel ends it, if it was opened. -/
theorem Agrees.closed (h : Agrees s id f) (hm : Mirrors s id q) :
    Agrees (s.modifyChannel id Channel.close) id { f with ended := f.ended || f.opened } ∧
      Mirrors (s.modifyChannel id Channel.close) id q ∧
      (ShutWith s id q → ShutWith (s.modifyChannel id Channel.close) id q) := by
  have hc := s.channel?_modifyChannel_self id Channel.close_id
  refine ⟨⟨?_, ?_⟩, hm.map hc fun c => ⟨rfl, rfl⟩, fun hq => hq.map hc fun c => rfl⟩
  · intro hn
    rw [hc, Option.map_eq_none_iff] at hn
    obtain ⟨hno, hd⟩ := h.untracked hn
    exact ⟨hno, by rw [hno, Bool.or_false]; exact hd⟩
  · intro c hs
    rw [hc, Option.map_eq_some_iff] at hs
    obtain ⟨c₀, h₀, rfl⟩ := hs
    obtain ⟨ho, -⟩ := h.tracked c₀ h₀
    exact ⟨ho, fun _ => rfl, fun hf => by rw [ho, Bool.or_true] at hf; cases hf⟩

/-- The event of a happening moves the record as it moves the fate, and leaves the inbox. -/
theorem Agrees.event (h : Agrees s id f) (hm : Mirrors s id q) (p : SansIoPeer) (x : Happening) :
    Agrees (s.applyEvents limit (x.event?.bind p.peerEvent?).toList) id (f.next drainsEnd id x) ∧
      Mirrors (s.applyEvents limit (x.event?.bind p.peerEvent?).toList) id q ∧
      (ShutWith s id q →
        ShutWith (s.applyEvents limit (x.event?.bind p.peerEvent?).toList) id q) := by
  cases x with
  | message => exact ⟨h, hm, fun hq => hq⟩
  | channelOpen id' =>
    show Agrees (s.applyEvent limit (.channelOpen id' (p.label id'))) id _ ∧
      Mirrors (s.applyEvent limit (.channelOpen id' (p.label id'))) id q ∧
      (ShutWith s id q → ShutWith (s.applyEvent limit (.channelOpen id' (p.label id'))) id q)
    by_cases hid : id' = id
    · subst hid
      simp only [Fate.next, if_true]
      exact h.opened hm _
    · obtain ⟨-, hne, hdead⟩ := channel?_open limit s id' (p.label id')
      simp only [Fate.next, if_neg hid]
      exact h.frame hm (hne id (Ne.symm hid)) hdead
  | channelClose id' =>
    show Agrees (s.modifyChannel id' Channel.close) id _ ∧
      Mirrors (s.modifyChannel id' Channel.close) id q ∧
      (ShutWith s id q → ShutWith (s.modifyChannel id' Channel.close) id q)
    by_cases hid : id' = id
    · subst hid
      simp only [Fate.next, if_true]
      exact h.closed hm
    · simp only [Fate.next, if_neg hid]
      exact h.frame hm (Shared.channel?_modifyChannel_ne s Channel.close_id (Ne.symm hid)) rfl
  | stateChange state =>
    have hclose := s.channel?_closeChannels id
    cases state with
    | unspecified | new | connecting => exact ⟨h, hm, fun hq => hq⟩
    | connected => exact h.frame hm rfl rfl
    | failed | disconnected | closed =>
      refine ⟨h.closeChannels rfl ?_, hm.map hclose fun c => ⟨rfl, rfl⟩,
        fun hq => hq.map hclose fun c => rfl⟩
      simp [Shared.applyEvent, Shared.dead, Option.toList, SansIoPeer.peerEvent?, Happening.event?]

/-- The events of a drain move the record as the drained history moves the fate. -/
theorem Agrees.events (h : Agrees s id f) (hm : Mirrors s id q) (p : SansIoPeer)
    (hs : List Happening) :
    Agrees (s.applyEvents limit ((hs.filterMap Happening.event?).filterMap p.peerEvent?)) id
        (hs.foldl (Fate.next drainsEnd id) f) ∧
      Mirrors (s.applyEvents limit ((hs.filterMap Happening.event?).filterMap p.peerEvent?)) id q ∧
      (ShutWith s id q → ShutWith
        (s.applyEvents limit ((hs.filterMap Happening.event?).filterMap p.peerEvent?)) id q) := by
  induction hs generalizing s f with
  | nil => exact ⟨h, hm, fun hq => hq⟩
  | cons x hs ih =>
    have hsplit : ((x :: hs).filterMap Happening.event?).filterMap p.peerEvent? =
        (x.event?.bind p.peerEvent?).toList ++
          (hs.filterMap Happening.event?).filterMap p.peerEvent? := by
      rw [List.filterMap_cons]
      cases hx : x.event? with
      | none => rfl
      | some ev =>
        rw [List.filterMap_cons]
        cases hp : p.peerEvent? ev with
        | none => simp [hp]
        | some e => simp [hp]
    rw [hsplit, Shared.applyEvents_append]
    obtain ⟨h', hm', hq'⟩ := h.event hm p x
    obtain ⟨h'', hm'', hq''⟩ := ih h' hm'
    exact ⟨h'', hm'', fun hq => hq'' (hq' hq)⟩

/-! ## The messages of a drain -/

theorem applyEvent_message_dead (limit : Nat) (s : Shared) (id : RTCDataChannelId) (text : Bool)
    (data : Bytes) : (s.applyEvent limit (.message id text data)).dead = s.dead := by
  simp only [Shared.applyEvent]
  split
  · split
    · rfl
    · split <;> rfl
  · rfl

/-- A fold of events leaves the core's queues and closes, and the close request, alone. -/
theorem applyEvents_queues (limit : Nat) (s : Shared) (es : List PeerEvent) :
    (s.applyEvents limit es).peer.events = s.peer.events ∧
      (s.applyEvents limit es).peer.reads = s.peer.reads ∧
      (s.applyEvents limit es).closeRequested = s.closeRequested ∧
      (s.applyEvents limit es).peer.closes = s.peer.closes := by
  induction es generalizing s with
  | nil => exact ⟨rfl, rfl, rfl, rfl⟩
  | cons e es ih =>
    rw [Shared.applyEvents_cons]
    have hstep : (s.applyEvent limit e).peer.events = s.peer.events ∧
        (s.applyEvent limit e).peer.reads = s.peer.reads ∧
        (s.applyEvent limit e).closeRequested = s.closeRequested ∧
        (s.applyEvent limit e).peer.closes = s.peer.closes := by
      cases e with
      | connected | failed | closed | channelClosed => exact ⟨rfl, rfl, rfl, rfl⟩
      | channelOpen id label => simp only [Shared.applyEvent]; split <;> exact ⟨rfl, rfl, rfl, rfl⟩
      | message id text data =>
        simp only [Shared.applyEvent]
        split
        · split
          · exact ⟨rfl, rfl, rfl, rfl⟩
          · split <;> exact ⟨rfl, rfl, rfl, rfl⟩
        · exact ⟨rfl, rfl, rfl, rfl⟩
    obtain ⟨h1, h2, h3, h4⟩ := ih (s.applyEvent limit e)
    exact ⟨h1.trans hstep.1, h2.trans hstep.2.1, h3.trans hstep.2.2.1, h4.trans hstep.2.2.2⟩

/-- The messages of a drain, in the order of the queue. -/
def readEvents (hs : List Happening) : List PeerEvent :=
  (hs.filterMap Happening.read?).filterMap SansIoPeer.messageEvent?

/-- A message leaves the other channels alone. -/
theorem message_frame (limit : Nat) (s : Shared) {id' : RTCDataChannelId} (hne : id' ≠ id)
    (text : Bool) (data : Bytes) :
    (s.applyEvent limit (.message id' text data)).channel? id = s.channel? id :=
  (applyEvent_frame limit s (.message id' text data)).1 id' id rfl (Ne.symm hne)

/-- A channel that is over receives nothing. -/
theorem Agrees.reads_over (h : Agrees s id f) (hm : Mirrors s id q) (ho : f.ended = true)
    (hs : List Happening) :
    Agrees (s.applyEvents limit (readEvents hs)) id f ∧
      Mirrors (s.applyEvents limit (readEvents hs)) id q := by
  induction hs generalizing s with
  | nil => exact ⟨h, hm⟩
  | cons x hs ih =>
    cases x with
    | channelOpen | channelClose | stateChange => exact ih h hm
    | message id' text data =>
      show Agrees ((s.applyEvent limit (.message id' text data)).applyEvents limit
        (readEvents hs)) id f ∧ Mirrors ((s.applyEvent limit (.message id' text data)).applyEvents
          limit (readEvents hs)) id q
      have hsame : (s.applyEvent limit (.message id' text data)).channel? id = s.channel? id := by
        by_cases hid : id' = id
        · subst hid
          cases hc : s.channel? id' with
          | none => simp [Shared.applyEvent, hc]
          | some c =>
            have hcl := (h.tracked c hc).2.1 ho
            simp [Shared.applyEvent, hc, hcl]
        · exact message_frame limit s hid text data
      exact ih (h.of_eq hsame (applyEvent_message_dead limit s id' text data)) (hm.of_eq hsame)

/-- A tracked channel that is not over takes a message as its log does. -/
theorem Agrees.message (h : Agrees s id f) (hm : Mirrors s id q) (ho : f.ended = false)
    (hq : ShutWith s id q) {c : Channel} (hc : s.channel? id = some c) (text : Bool)
    (data : Bytes) :
    Agrees (s.applyEvent limit (.message id text data)) id f ∧
      Mirrors (s.applyEvent limit (.message id text data)) id (q.offer ⟨text, data⟩) ∧
      ShutWith (s.applyEvent limit (.message id text data)) id (q.offer ⟨text, data⟩) := by
  obtain ⟨hopen, -, hof⟩ := h.tracked c hc
  have hdead := applyEvent_message_dead limit s id text data
  have hinbox : c.inbox = q.held := by
    have := hm.inbox
    rwa [Shared.inbox, hc] at this
  have hshut : q.shut = c.closed := by rw [hq, hc, hof ho]; rfl
  cases hcl : c.closed with
  | true =>
    rw [hcl] at hshut
    have hsame : s.applyEvent limit (.message id text data) = s := by
      simp [Shared.applyEvent, hc, hcl]
    rw [hsame, Log.offer_of_shut hshut]
    exact ⟨h, hm, hq⟩
  | false =>
    have hended : c.overflowed = false := by rw [← hof ho, hcl]
    rw [hcl] at hshut
    by_cases hfit : c.inboxBytes + data.length ≤ limit
    · have hle : ¬ c.inboxBytes + data.length > limit := by omega
      have hadm : q.Admits ⟨text, data⟩ := ⟨hshut, by rw [← hm.bytes c hc]; exact hfit⟩
      obtain ⟨-, hheld, hsh⟩ := Log.offer_of_admits hadm
      have hch : (s.applyEvent limit (.message id text data)).channel? id =
          some (c.push ⟨text, data⟩) := by
        simp only [Shared.applyEvent, hc, hcl, hended, Bool.or_self, Bool.false_eq_true, if_false,
          if_neg hle]
        rw [Shared.channel?_modifyChannel_self _ _ (Channel.push_id · ⟨text, data⟩), hc]
        rfl
      refine ⟨⟨?_, ?_⟩, ⟨?_, ?_⟩, ?_⟩
      · intro hn
        rw [hch] at hn; cases hn
      · intro c' hs
        rw [hch] at hs; cases hs
        exact ⟨hopen, fun ho' => (by rw [ho] at ho'; cases ho'), hof⟩
      · rw [Shared.inbox, hch, hheld, ← hinbox]; rfl
      · intro c' hs
        rw [hch] at hs; cases hs
        rw [hheld, load_append, ← hm.bytes c hc]
        simp [Channel.push]
      · rw [ShutWith, hsh, hch]; exact hended.symm
    · have hgt : c.inboxBytes + data.length > limit := by omega
      have hadm : ¬ q.Admits ⟨text, data⟩ := fun ha => by
        have h2 := ha.2
        rw [← hm.bytes c hc] at h2
        exact hfit h2
      have hch : (s.applyEvent limit (.message id text data)).channel? id = some c.overflow := by
        simp only [Shared.applyEvent, hc, hcl, hended, Bool.or_self, Bool.false_eq_true, if_false,
          if_pos hgt]
        show (s.modifyChannel id Channel.overflow).channel? id = _
        rw [Shared.channel?_modifyChannel_self _ _ Channel.overflow_id, hc]
        rfl
      rw [Log.offer_of_not_admits hadm]
      refine ⟨⟨?_, ?_⟩, ⟨?_, ?_⟩, ?_⟩
      · intro hn
        rw [hch] at hn; cases hn
      · intro c' hs
        rw [hch] at hs; cases hs
        exact ⟨hopen, fun _ => rfl, fun _ => rfl⟩
      · rw [Shared.inbox, hch]; exact hinbox
      · intro c' hs
        rw [hch] at hs; cases hs
        exact hm.bytes c hc
      · rw [ShutWith, hch]; rfl

/-- A channel that is not over takes the messages of a drain as its log does. -/
theorem Agrees.reads (h : Agrees s id f) (hm : Mirrors s id q) (ho : f.ended = false)
    (hq : ShutWith s id q) (hs : List Happening)
    (hopen : ∀ x ∈ hs, x.on id ≠ [] → ∃ c, s.channel? id = some c) :
    Agrees (s.applyEvents limit (readEvents hs)) id f ∧
      Mirrors (s.applyEvents limit (readEvents hs)) id
        (q.applyAll ((hs.flatMap (Happening.on id)).map .offer)) ∧
      ShutWith (s.applyEvents limit (readEvents hs)) id
        (q.applyAll ((hs.flatMap (Happening.on id)).map .offer)) := by
  induction hs generalizing s q with
  | nil => exact ⟨h, hm, hq⟩
  | cons x hs ih =>
    have htail : ∀ y ∈ hs, y.on id ≠ [] → ∃ c, s.channel? id = some c :=
      fun y hy => hopen y (.tail _ hy)
    cases x with
    | channelOpen | channelClose | stateChange => exact ih h hm hq htail
    | message id' text data =>
      by_cases hid : id' = id
      · subst hid
        obtain ⟨c, hc⟩ := hopen _ (.head _) (by simp [Happening.on])
        obtain ⟨h', hm', hq'⟩ := h.message hm ho hq hc text data
        have hstill : ∃ c, (s.applyEvent limit (.message id' text data)).channel? id' = some c :=
          (applyEvent_flagsKept limit s (.message id' text data)).channel id' c hc
            |>.imp fun _ hk => hk.1
        have hrec := ih h' hm' hq' fun _ _ _ => hstill
        simpa [readEvents, Happening.read?, SansIoPeer.messageEvent?, Happening.on, Log.apply]
          using hrec
      · have hsame := message_frame limit s hid text data
        have hrec := ih (h.of_eq hsame (applyEvent_message_dead limit s id' text data))
          (hm.of_eq hsame) (by rw [ShutWith, hsame]; exact hq)
          (fun y hy hne => by rw [hsame]; exact htail y hy hne)
        simpa [readEvents, Happening.read?, SansIoPeer.messageEvent?, Happening.on, hid] using hrec

end

/-! ## The invariant -/

namespace Intake

variable {limit : Nat} {s s' : Intake limit} {a : IntakeAct} {id : RTCDataChannelId}

/-- What one channel's record and its log are to each other: they hold the same messages and were
popped the same, and until the channel is taken to be over they are shut together. -/
structure Owed (s : Intake limit) (id : RTCDataChannelId) : Prop where
  agrees : Agrees s.shared id (fate drainsEnd id s.past)
  mirrors : Mirrors s.shared id (s.due id)
  popped : ofChannel id s.popped = (s.due id).taken
  shut : (fate drainsEnd id s.past).ended = false → ShutWith s.shared id (s.due id)

/-- The core's queues hold what is queued, a message comes after its channel's open, and every
channel is in order. -/
structure Inv (s : Intake limit) : Prop where
  events : s.shared.peer.events = s.queued.filterMap Happening.event?
  reads : s.shared.peer.reads = s.queued.filterMap Happening.read?
  request : s.shared.closeRequested = false
  ordered : ∀ h ∈ s.queued, ∀ id, h.on id ≠ [] → .channelOpen id ∈ s.past ++ s.queued
  owed : ∀ id, s.Owed id

theorem inv_start : (start : Intake limit).Inv := by
  refine ⟨rfl, rfl, rfl, nofun, fun id => ⟨⟨fun _ => ⟨rfl, rfl⟩, nofun⟩, ⟨rfl, nofun⟩, rfl, ?_⟩⟩
  exact fun _ => rfl

/-- Channels in order get what is due to them. -/
theorem Inv.delivered (h : s.Inv) : s.Delivered := by
  intro id
  rw [(h.owed id).popped, (h.owed id).mirrors.inbox, Log.accepted]

/-- A drain folds the queued events, then the queued messages. -/
theorem Inv.turn (h : s.Inv) (id : RTCDataChannelId) :
    ((s.shared.turn limit).channel? id = ((s.shared.drain.applyEvents limit
        ((s.queued.filterMap Happening.event?).filterMap s.shared.peer.peerEvent?)).applyEvents
          limit (readEvents s.queued)).channel? id) ∧
      (s.shared.turn limit).dead = ((s.shared.drain.applyEvents limit
        ((s.queued.filterMap Happening.event?).filterMap s.shared.peer.peerEvent?)).applyEvents
          limit (readEvents s.queued)).dead ∧
      (s.shared.turn limit).peer.events = [] ∧ (s.shared.turn limit).peer.reads = [] ∧
      (s.shared.turn limit).closeRequested = false := by
  have hpc : s.shared.performClose = s.shared := by simp [Shared.performClose, h.request]
  have hdr : s.shared.drained =
      (s.queued.filterMap Happening.event?).filterMap s.shared.peer.peerEvent? ++
        readEvents s.queued := by
    simp only [Shared.drained, hpc, SansIoPeer.drainEvents, h.events, h.reads, readEvents]
  have hq := applyEvents_queues limit s.shared.drain s.shared.drained
  have hd : s.shared.drain.peer.events = [] ∧ s.shared.drain.peer.reads = [] ∧
      s.shared.drain.closeRequested = false := by
    simp [Shared.drain, hpc, SansIoPeer.drainEvents, h.request]
  have he : (s.shared.turn limit).peer.events = [] ∧ (s.shared.turn limit).peer.reads = [] ∧
      (s.shared.turn limit).closeRequested = false := by
    rcases turn_eq limit s.shared with he | he <;> rw [he] <;>
      exact ⟨hq.1.trans hd.1, hq.2.1.trans hd.2.1, hq.2.2.1.trans hd.2.2⟩
  rw [← Shared.applyEvents_append, ← hdr]
  refine ⟨?_, ?_, he⟩ <;>
    rcases turn_eq limit s.shared with ht | ht <;> rw [ht] <;> rfl

/-- What is due to a channel that a drain does not end grows by the drained messages. -/
theorem Inv.drain_live (h : s.Inv) (hs : s.step .drain = some s') (id : RTCDataChannelId)
    (ho : (fate drainsEnd id (s.past ++ s.queued)).ended = false) : s'.Owed id := by
  cases hs
  obtain ⟨hagrees, hmirrors, hpopped, hshut⟩ := h.owed id
  obtain ⟨hch, hdead, -⟩ := h.turn id
  have hsame := s.shared.drain_channel? id
  have ho' : (fate drainsEnd id s.past).ended = false := by
    by_contra hc
    have := Fate.ended_foldl drainsEnd id s.queued (eq_true_of_ne_false hc)
    rw [← fate_append, ho] at this
    cases this
  have hspec :
      (s.queued.foldl (Fate.next endsConnection id) (fate endsConnection id s.past)).ended =
        false := by
    by_contra hc
    rw [← fate_append] at hc
    have := (fate_le id (f := ⟨false, false⟩) (g := ⟨false, false⟩) rfl (fun h => h)
      (s.past ++ s.queued)).2 (eq_true_of_ne_false hc)
    rw [fate] at ho
    rw [ho] at this
    cases this
  obtain ⟨hev, hmv, hqv⟩ :=
    (hagrees.of_eq hsame s.shared.drain_dead).events (hmirrors.of_eq hsame) s.shared.peer s.queued
  rw [← fate_append] at hev
  have hshutv := hqv (by rw [ShutWith, hsame]; exact hshut ho')
  have hopen : ∀ x ∈ s.queued, x.on id ≠ [] → ∃ c, (s.shared.drain.applyEvents limit
      ((s.queued.filterMap Happening.event?).filterMap s.shared.peer.peerEvent?)).channel? id =
        some c := by
    intro x hx hne
    rw [← Option.isSome_iff_exists, Option.isSome_iff_ne_none]
    intro hn
    have := (hev.untracked hn).1
    rw [fate_opened (h.ordered x hx id hne)] at this
    cases this
  obtain ⟨h1, h2, h3⟩ := hev.reads hmv ho hshutv s.queued hopen
  rw [← owed_of_not_over s.queued hspec] at h2 h3
  refine ⟨h1.of_eq hch hdead, h2.of_eq hch, ?_, ?_⟩
  · rw [Log.taken_applyAll_offers]
    exact hpopped
  · intro _
    rw [ShutWith, hch]
    exact h3

/-- A drain that ends a channel, or comes after its end, leaves its inbox. -/
theorem Inv.drain_over (h : s.Inv) (id : RTCDataChannelId)
    (ho : (fate drainsEnd id (s.past ++ s.queued)).ended = true) :
    Agrees (s.shared.turn limit) id (fate drainsEnd id (s.past ++ s.queued)) ∧
      Mirrors (s.shared.turn limit) id (s.due id) := by
  obtain ⟨hagrees, hmirrors, -, -⟩ := h.owed id
  obtain ⟨hch, hdead, -⟩ := h.turn id
  have hsame := s.shared.drain_channel? id
  obtain ⟨hev, hmv, -⟩ := (hagrees.of_eq hsame s.shared.drain_dead).events
    (hmirrors.of_eq hsame) s.shared.peer s.queued
  rw [← fate_append] at hev
  obtain ⟨h1, h2⟩ := hev.reads_over hmv ho s.queued
  exact ⟨h1.of_eq hch hdead, h2.of_eq hch⟩

/-- Offers of which the log refuses the first leave what it holds and what was taken. -/
theorem refused_offers {q : Log InboundMessage.len limit} {ms : List InboundMessage}
    (h : ∀ m ms', ms = m :: ms' → ¬ q.Admits m) :
    (q.applyAll (ms.map .offer)).held = q.held ∧ (q.applyAll (ms.map .offer)).taken = q.taken := by
  cases ms with
  | nil => exact ⟨rfl, rfl⟩
  | cons m ms =>
    rw [List.map_cons, Log.applyAll_cons, Log.apply, Log.offer_of_not_admits (h m ms rfl),
      Log.applyAll_offers_of_shut rfl]
    exact ⟨rfl, rfl⟩

/-- A pop takes from the log what it takes from the inbox. -/
theorem Owed.pop (h : s.Owed id) (hs : s.step (.pop id) = some s') : s'.Owed id := by
  cases hs
  obtain ⟨hagrees, hmirrors, hpopped, hshut⟩ := h
  cases hc : s.shared.channel? id with
  | none =>
    have hpc : s.shared.popChannel id = (none, s.shared) := by simp [Shared.popChannel, hc]
    have hheld : (s.due id).held = [] := by rw [← hmirrors.inbox, Shared.inbox, hc]; rfl
    refine ⟨?_, ?_, ?_, ?_⟩ <;>
      simp only [Shared.popEntry, hpc, if_true, Log.take_nil hheld, Option.map_none,
        Option.toList_none, List.append_nil]
    · exact hagrees
    · exact hmirrors
    · exact hpopped
    · exact hshut
  | some c =>
    have hpc := popChannel_some hc
    have hch : (s.shared.modifyChannel id fun c => c.pop.2).channel? id = some c.pop.2 := by
      rw [Shared.channel?_modifyChannel_self _ _ Channel.pop_id, hc]
      rfl
    obtain ⟨-, hov, -, hcl⟩ := c.pop_frame
    have hinbox : c.inbox = (s.due id).held := by
      have := hmirrors.inbox
      rwa [Shared.inbox, hc] at this
    have htake : c.pop.2.inbox = (s.due id).take.held ∧
        c.pop.2.inboxBytes = load InboundMessage.len (s.due id).take.held ∧
        (s.due id).take.taken = (s.due id).taken ++ c.pop.1.toList ∧
        (s.due id).take.shut = (s.due id).shut := by
      have hb := hmirrors.bytes c hc
      cases hi : c.inbox with
      | nil =>
        rw [Log.take_nil (hinbox ▸ hi)]
        simp [Channel.pop, hi, ← hinbox, hb]
      | cons m rest =>
        have hq : (s.due id).held = m :: rest := hinbox ▸ hi
        obtain ⟨ht, hh, hsh⟩ := Log.take_cons hq
        rw [hq, load_cons] at hb
        rw [ht, hh, hsh]
        simp [Channel.pop, hi, hb]
    have hentry : ofChannel id (s.shared.popEntry id) = c.pop.1.toList := by
      rw [Shared.popEntry, hpc]
      cases c.pop.1 with
      | none => rfl
      | some m => exact ofChannel_self id m
    refine ⟨⟨?_, ?_⟩, ⟨?_, ?_⟩, ?_, ?_⟩
    · intro hn
      simp only [hpc, hch] at hn
      cases hn
    · intro c' hs
      simp only [hpc, hch] at hs
      cases hs
      rw [hov, hcl]
      exact hagrees.tracked c hc
    · simp only [hpc, if_true]
      rw [Shared.inbox, hch]
      exact htake.1
    · intro c' hs
      simp only [hpc, hch] at hs
      cases hs
      simp only [if_true]
      exact htake.2.1
    · simp only [if_true, ofChannel_append, hentry, hpopped]
      exact htake.2.2.1.symm
    · intro ho
      have := hshut ho
      rw [ShutWith, hc] at this
      simp only [ShutWith, hpc, hch, if_true]
      rw [htake.2.2.2, this]
      exact hov.symm

/-- A pop from another channel. -/
theorem Owed.pop_ne {id' : RTCDataChannelId} (h : s.Owed id) (hne : id ≠ id')
    (hs : s.step (.pop id') = some s') : s'.Owed id := by
  cases hs
  obtain ⟨hagrees, hmirrors, hpopped, hshut⟩ := h
  have hch : (s.shared.popChannel id').2.channel? id = s.shared.channel? id := by
    unfold Shared.popChannel
    split
    · exact Shared.channel?_modifyChannel_ne _ Channel.pop_id hne
    · rfl
  have hdead : (s.shared.popChannel id').2.dead = s.shared.dead := by
    unfold Shared.popChannel
    split <;> rfl
  refine ⟨hagrees.of_eq hch hdead, ?_, ?_, ?_⟩
  · simp only [if_neg hne]
    exact hmirrors.of_eq hch
  · simp only [if_neg hne, ofChannel_append]
    have hno : ofChannel id (s.shared.popEntry id') = [] := by
      rw [Shared.popEntry]
      cases (s.shared.popChannel id').1 with
      | none => rfl
      | some m => exact ofChannel_ne (Ne.symm hne) m
    rw [hno, List.append_nil]
    exact hpopped
  · intro ho
    simp only [ShutWith, if_neg hne, hch]
    exact hshut ho

/-- A step keeps the channels in order when a drain that ends a channel holds nothing due to it. -/
theorem Inv.step (h : s.Inv) (hC : s.EndsAlone a) (hs : s.step a = some s') : s'.Inv := by
  cases a with
  | happen x =>
    simp only [Intake.step] at hs
    split at hs
    · next hord =>
      cases hs
      refine ⟨?_, ?_, h.request, ?_, ?_⟩
      · simp only [h.events, List.filterMap_append]
        cases hx : x.event? <;> simp [hx]
      · simp only [h.reads, List.filterMap_append]
        cases hx : x.read? <;> simp [hx]
      · intro y hy id hne
        rw [← List.append_assoc, List.mem_append]
        refine .inl ?_
        rcases List.mem_append.1 hy with hy | hy
        · exact h.ordered y hy id hne
        · rw [List.mem_singleton] at hy
          subst hy
          cases y with
          | message id' b d =>
            have hid : id' = id := by
              by_contra hid
              simp [Happening.on, hid] at hne
            exact hid ▸ hord
          | channelOpen | channelClose | stateChange => exact absurd rfl hne
      · intro id
        obtain ⟨h1, h2, h3, h4⟩ := h.owed id
        exact ⟨h1.of_eq rfl rfl, h2.of_eq rfl, h3, h4⟩
    · cases hs
  | drain =>
    have hq := (h.turn 0).2.2
    have howed : ∀ id, s'.Owed id := by
      intro id
      cases ho : (fate drainsEnd id (s.past ++ s.queued)).ended with
      | false => exact h.drain_live hs id ho
      | true =>
        obtain ⟨h1, h2⟩ := h.drain_over id ho
        obtain ⟨hheld, htaken⟩ := refused_offers (hC id ho)
        cases hs
        refine ⟨h1, ⟨?_, ?_⟩, ?_, ?_⟩
        · rw [hheld]; exact h2.inbox
        · intro c hc
          rw [hheld]; exact h2.bytes c hc
        · rw [htaken]; exact (h.owed id).popped
        · intro ho'
          rw [ho] at ho'; cases ho'
    cases hs
    exact ⟨hq.1, hq.2.1, hq.2.2, nofun, howed⟩
  | pop id' =>
    have howed : ∀ id, s'.Owed id := by
      intro id
      by_cases hid : id = id'
      · subst hid
        exact (h.owed id).pop hs
      · exact (h.owed id).pop_ne hid hs
    cases hs
    have hpeer : (s.shared.popChannel id').2.peer = s.shared.peer ∧
        (s.shared.popChannel id').2.closeRequested = s.shared.closeRequested := by
      unfold Shared.popChannel
      split <;> exact ⟨rfl, rfl⟩
    refine ⟨?_, ?_, ?_, h.ordered, howed⟩
    · rw [hpeer.1]; exact h.events
    · rw [hpeer.1]; exact h.reads
    · rw [hpeer.2]; exact h.request

/-- A drain that ends a channel, or comes after its end, and holds a message due to it loses it. -/
theorem Inv.not_delivered (h : s.Inv) (hC : ¬ s.EndsAlone a) (hs : s.step a = some s') :
    ¬ s'.Delivered := by
  intro hd
  cases a with
  | happen x => exact hC trivial
  | pop id => exact hC trivial
  | drain =>
    refine hC ?_
    intro id ho m ms howed hadm
    obtain ⟨-, h2⟩ := h.drain_over id ho
    have hsame := h.delivered id
    rw [(h.owed id).mirrors.inbox] at hsame
    cases hs
    have hnew := hd id
    simp only [h2.inbox, howed, List.map_cons, Log.applyAll_cons, Log.apply] at hnew
    rw [hsame] at hnew
    have hpre := Log.accepted_prefix_applyAll (q := (s.due id).offer m) (ms.map .offer)
    rw [← hnew, Log.accepted_offer_of_admits hadm] at hpre
    have := hpre.length_le
    rw [List.length_append, List.length_singleton] at this
    omega

end Intake

/-- **When no message is lost.** Along every run of a connection that is not closed locally, every
channel's readers get exactly what is due to it exactly when no drain that ends a channel, or comes
after one, holds a message that is due to the channel and fits. -/
theorem no_message_lost_iff (limit : Nat) {s : Intake limit} {as : List IntakeAct}
    (h : Runs.run Intake.step (.start : Intake limit) as = some s) :
    Runs.Along Intake.step Intake.Delivered (.start : Intake limit) as ↔
      Runs.Meets Intake.step Intake.EndsAlone (.start : Intake limit) as :=
  Runs.along_iff_meets (I := Intake.Inv) (fun _ hi => hi.delivered)
    (fun _ _ _ hi hC hs => hi.step hC hs) (fun _ _ _ hi hC hs => hi.not_delivered hC hs)
    Intake.inv_start h

/-- A message and the close of its channel in separate drains. -/
theorem no_message_lost_iff_of_separate :
    Runs.Along Intake.step Intake.Delivered (.start : Intake 8)
      [.happen (.channelOpen 0), .happen (.message 0 true [104, 105]), .drain,
        .happen (.channelClose 0), .drain, .pop 0] := by
  refine (no_message_lost_iff 8 rfl).2 ?_
  refine (Runs.meets_cons rfl).2 ⟨trivial, (Runs.meets_cons rfl).2 ⟨trivial, ?_⟩⟩
  refine (Runs.meets_cons rfl).2 ⟨fun id ho => ?_, (Runs.meets_cons rfl).2 ⟨trivial, ?_⟩⟩
  · have hno : (fate drainsEnd id
        [.channelOpen 0, .message 0 true [104, 105]]).ended = false := by
      by_cases hid : 0 = id <;> simp [fate, Fate.next, hid]
    exact absurd (hno.symm.trans ho) nofun
  refine (Runs.meets_cons rfl).2 ⟨fun id _ m ms howed => ?_, (Runs.meets_cons rfl).2 ⟨trivial, ?_⟩⟩
  · have hno : ∀ f : Fate, owed id f [.channelClose 0] = [] := by
      intro f
      cases f.ended <;> simp [owed, Happening.on]
    exact absurd ((hno _).symm.trans howed) nofun
  trivial

/-- A message and the close of its channel in one drain: the close is folded first, and the message
that was received before it is dropped. -/
theorem message_lost :
    ∃ s : Intake 8, Runs.run Intake.step .start
        [.happen (.channelOpen 0), .drain, .happen (.message 0 true [104, 105]),
          .happen (.channelClose 0), .drain] = some s ∧
      (s.due 0).accepted = [⟨true, [104, 105]⟩] ∧ s.shared.inbox 0 = [] ∧ s.popped = [] ∧
      (receive s.shared 0).1 = .ret (.error .closed) ∧ ¬ s.Delivered := by
  refine ⟨_, rfl, rfl, rfl, rfl, rfl, ?_⟩
  intro hd
  have := hd 0
  exact absurd this nofun

end WebrtcDatachannels.Guest
