import WebrtcDatachannels.Suite.Exchange
import WebrtcDatachannels.Suite.Handshake

/-!
# The closing barrier of the conformance guest

`run_two_peer` and `barrier` of `conformance/guest/src/lib.rs`: two peers that run the same test,
each its exchange, then the barrier, and then `close`. The channel takes a peer's messages to the
other in order and loses none until that peer closes; from then on the other may lose what it has
not received, and a call of it may return `closed`. `Side` says for one peer what it has sent and
received; the peer that leaves the barrier knows that the other's exchange has returned.
-/

namespace WebrtcDatachannels.Suite

open Signaling (Role)

/-- The internal result of running one test. Source: `Outcome`. -/
inductive Outcome where
  | pass
  | fail (detail : String)
deriving DecidableEq, Repr

/-- Source: `Outcome::from_result`. -/
def Outcome.fromResult : Except String Unit → Outcome
  | .ok () => .pass
  | .error detail => .fail detail

/-- Where a peer is in `run_two_peer`: before the exchange; in it, with the messages that it has not
sent, what its sending task returned, and its receiving task; in the barrier, with what its two
tasks returned; before `close`; behind it. -/
inductive Phase where
  | connecting
  | exchanging (sends : List Message) (sent : Except String Unit) (receiver : Receiver)
  | barrier (sent received : Option (Except String Unit))
  | closing (outcome : Outcome)
  | closed (outcome : Outcome)

/-- A peer, with its messages that the channel has not delivered and those that it has received. -/
structure Peer where
  phase : Phase
  wire : List Message
  received : List Message

/-- What happens to a peer: its exchange starts, with the handshake over; a message that it sends is
taken, or refused with `closed`; it receives a message, or `closed`; the channel loses a message to
it; or it goes on, from a routine that has returned, or by `close`. -/
inductive PeerEvent where
  | connect
  | send (refused : Bool)
  | deliver
  | observeClosed
  | lose (k : Nat)
  | go

namespace Phase

/-- The peer has closed. -/
def isClosed : Phase → Bool
  | .closed _ => true
  | _ => false

/-- The peer's exchange has returned. -/
def Returned : Phase → Prop
  | .connecting | .exchanging _ _ _ => False
  | .barrier _ _ | .closing _ | .closed _ => True

/-- The message that a task sends next, and where the peer goes on with what `send` returns. A task
that fails in a `join!` does not stop the other. Source: `send` in an exchange, `send_side` in
`barrier`. -/
def sendReturned (x : Exchange) (r : Except Error Unit) : Phase → Option (Message × Phase)
  | .exchanging (m :: sends) sent receiver =>
    match r with
    | .ok () => some (m, .exchanging sends sent receiver)
    | .error e =>
      let failure := Except.error ("send: " ++ describe e)
      if x.concurrent then some (m, .exchanging [] failure receiver)
      else some (m, .exchanging [] sent (.ret failure))
  | .barrier none received =>
    let sent := match r with
      | .ok () | .error .closed => .ok ()
      | .error e => .error ("send: " ++ describe e)
    some (.binary sentinel, .barrier (some sent) received)
  | _ => none

/-- Where the peer goes on with what `receive` returns to a task. Source: `receive` in an exchange,
`recv_side` in `barrier`. -/
def receiveReturned (x : Exchange) (r : Except Error Message) : Phase → Option Phase
  | .exchanging sends sent (.receive next) =>
    if x.concurrent = true ∨ sends = [] then
      match r with
      | .ok m => some (.exchanging sends sent (next m))
      | .error e => some (.exchanging sends sent (.ret (.error ("receive: " ++ describe e))))
    else none
  | .barrier sent none =>
    match r with
    | .ok m => some (.barrier sent (if m = .binary sentinel then some (.ok ()) else none))
    | .error .closed => some (.barrier sent (some (.ok ())))
    | .error e => some (.barrier sent (some (.error ("receive: " ++ describe e))))
  | _ => none

/-- Where the peer goes on when both tasks have returned, and by `close`. Source: `run_two_peer`. -/
def goOn : Phase → Option Phase
  | .exchanging [] sent (.ret r) =>
    match sent.bind fun _ => r with
    | .ok () => some (.barrier none none)
    | .error detail => some (.closing (.fail detail))
  | .barrier (some sent) (some received) =>
    some (.closing (.fromResult (sent.bind fun _ => received)))
  | .closing outcome => some (.closed outcome)
  | _ => none

end Phase

/-- An event of a peer beside the other. -/
def Peer.step (x : Exchange) (me other : Peer) : PeerEvent → Option (Peer × Peer)
  | .connect =>
    match me.phase with
    | .connecting => some ({ me with phase := .exchanging x.sends (.ok ()) x.receiver }, other)
    | _ => none
  | .send refused =>
    if refused then
      if other.phase.isClosed then
        (me.phase.sendReturned x (.error .closed)).map fun q => ({ me with phase := q.2 }, other)
      else none
    else
      (me.phase.sendReturned x (.ok ())).map fun q =>
        ({ me with phase := q.2, wire := me.wire ++ [q.1] }, other)
  | .deliver =>
    match other.wire with
    | m :: wire =>
      (me.phase.receiveReturned x (.ok m)).map fun phase =>
        ({ me with phase, received := me.received ++ [m] }, { other with wire })
    | [] => none
  | .observeClosed =>
    if other.phase.isClosed then
      (me.phase.receiveReturned x (.error .closed)).map fun phase => ({ me with phase }, other)
    else none
  | .lose k =>
    if other.phase.isClosed = true ∧ k < other.wire.length then
      some (me, { other with wire := other.wire.eraseIdx k })
    else none
  | .go => me.phase.goOn.map fun phase => ({ me with phase }, other)

/-- The two exchanges of a test. -/
structure TwoPeerTest where
  testId : String
  label : Role → String
  messageCount : Role → UInt32
  messageSize : Role → UInt32

/-- The exchange of a peer. -/
def TwoPeerTest.exchange (p : TwoPeerTest) (role : Role) : Exchange :=
  Suite.exchange p.testId (p.label role) (p.messageCount role) (p.messageSize role)

/-- The exchange of a peer succeeds with what the other sends when it succeeds: its messages, and
then the sentinel. -/
def TwoPeerTest.Succeeds (p : TwoPeerTest) (role : Role) : Prop :=
  (p.exchange role).receiver.feed
    ((p.exchange role.peer).sends ++ [.binary sentinel]) = some (.ok ())

/-- Two peers that are connecting. -/
def startPeers : Role → Peer := fun _ => { phase := .connecting, wire := [], received := [] }

/-- An event of one of the two peers. -/
def stepPeers (p : TwoPeerTest) (s : Role → Peer) (a : Role × PeerEvent) : Option (Role → Peer) :=
  ((s a.1).step (p.exchange a.1) (s a.1.peer) a.2).map fun q role => if role = a.1 then q.1 else q.2

/-! ## What a peer has sent and received -/

/-- What a peer with the exchange `x` has sent so far. -/
def Phase.Sent (x : Exchange) (messages : List Message) : Phase → Prop
  | .connecting => messages = []
  | .exchanging sends sent _ => messages ++ sends = x.sends ∧ sent = .ok ()
  | .barrier none _ => messages = x.sends
  | .barrier (some _) _ | .closing _ => messages = x.sends ++ [.binary sentinel]
  | .closed _ => True

/-- What a peer whose other has the exchange `y` has received so far, and what it knows of the
other's phase. -/
def Phase.Received (y : Exchange) (messages : List Message) : Phase → Phase → Prop
  | .connecting, _ => messages = []
  | .exchanging _ _ receiver, _ =>
    ∃ rest, messages ++ rest = y.sends ∧ receiver.feed rest = some (.ok ())
  | .barrier sent received, other => (∀ r, sent = some r → r = .ok ()) ∧
    (∀ r, received = some r → r = .ok () ∧ other.Returned) ∧
    (received = none → Message.binary sentinel ∉ messages)
  | .closing outcome, other | .closed outcome, other => outcome = .pass ∧ other.Returned

/-- What holds of a peer beside the other: while neither has closed, the channel has lost
nothing. -/
structure Side (x y : Exchange) (me other : Peer) : Prop where
  sent : me.phase.isClosed = false → other.phase.isClosed = false →
    me.phase.Sent x (other.received ++ me.wire)
  received : me.phase.Received y me.received other.phase

/-- What holds of the two. -/
def Sides (x y : Exchange) (me other : Peer) : Prop := Side x y me other ∧ Side y x other me

/-- An upper bound on the events of a peer with the exchange `x`, but for those of its messages. -/
def Phase.rank (x : Exchange) : Phase → Nat
  | .connecting => 9 + 2 * x.sends.length
  | .exchanging sends _ _ => 8 + 2 * sends.length
  | .barrier sent received =>
    2 + (if sent.isNone then 3 else 0) + (if received.isNone then 1 else 0)
  | .closing _ => 1
  | .closed _ => 0

/-- An upper bound on the events of a peer and of its messages. -/
def Peer.work (x : Exchange) (me : Peer) : Nat := me.phase.rank x + me.wire.length

section
variable {x y : Exchange} {me me' other other' : Peer} {messages : List Message} {phase : Phase}
  {m : Message} {wire : List Message}

theorem Phase.returned_of_isClosed (h : phase.isClosed = true) : phase.Returned := by
  cases phase with
  | closed => trivial
  | connecting | exchanging | barrier | closing => cases h

/-- A peer that has not closed has sent its messages, and the sentinel behind them, as far as that
goes. -/
theorem Phase.Sent.of_open (h : phase.Sent x messages) (hopen : phase.isClosed = false) :
    messages <+: x.sends ++ [.binary sentinel] := by
  cases phase with
  | connecting => rw [show messages = [] from h]; exact List.nil_prefix
  | exchanging sends sent receiver =>
    rw [← h.1, List.append_assoc]
    exact List.prefix_append _ _
  | barrier sent received =>
    cases sent with
    | none => rw [show messages = x.sends from h]; exact List.prefix_append _ _
    | some r => exact ⟨[], (List.append_nil _).trans h⟩
  | closing outcome => exact ⟨[], (List.append_nil _).trans h⟩
  | closed outcome => cases hopen

/-- A peer that has sent the sentinel has left its exchange. -/
theorem Phase.Sent.returned (hx : Message.binary sentinel ∉ x.sends) (h : phase.Sent x messages)
    (hm : Message.binary sentinel ∈ messages) : phase.Returned := by
  cases phase with
  | connecting => rw [show messages = [] from h] at hm; cases hm
  | exchanging sends sent receiver =>
    refine absurd ?_ hx
    rw [← h.1]
    exact List.mem_append_left _ hm
  | barrier | closing | closed => trivial

/-- What a peer knows of the other's phase stays true. -/
theorem Phase.Received.mono {before after : Phase} (h : phase.Received y messages before)
    (hmono : before.Returned → after.Returned) : phase.Received y messages after := by
  cases phase with
  | connecting | exchanging => exact h
  | barrier sent received =>
    obtain ⟨hs, hr, hno⟩ := h
    exact ⟨hs, fun r he => ⟨(hr r he).1, hmono (hr r he).2⟩, hno⟩
  | closing | closed => exact ⟨h.1, hmono h.2⟩

/-- A peer in its exchange is beside one that has not closed. -/
theorem Sides.other_open (h : Sides x y me other) (hme : ¬ me.phase.Returned) :
    other.phase.isClosed = false := by
  cases hp : other.phase with
  | closed outcome =>
    have hr := h.2.received
    rw [hp] at hr
    exact absurd hr.2 hme
  | connecting | exchanging | barrier | closing => rfl

/-- What the step of a peer makes of the two. -/
def Advances (x y : Exchange) (me other me' other' : Peer) : Prop :=
  Sides x y me' other' ∧ me'.work x + other'.work y < me.work x + other.work y

/-- A step of a peer that changes no message. -/
theorem Sides.move (h : Sides x y me other)
    (hopen : phase.isClosed = false → me.phase.isClosed = false)
    (hmono : me.phase.Returned → phase.Returned)
    (hsent : me.phase.isClosed = false → other.phase.isClosed = false →
      me.phase.Sent x (other.received ++ me.wire) → phase.Sent x (other.received ++ me.wire))
    (hreceived : phase.Received y me.received other.phase)
    (hrank : phase.rank x < me.phase.rank x) :
    Advances x y me other { me with phase } other := by
  refine ⟨⟨⟨fun hme hother => ?_, hreceived⟩, fun hother hme => ?_, h.2.received.mono hmono⟩, ?_⟩
  · exact hsent (hopen hme) hother (h.1.sent (hopen hme) hother)
  · exact h.2.sent hother (hopen hme)
  · simp only [Peer.work]
    omega

/-- The exchange starts. -/
theorem Sides.connect (h : Sides x y me other) (hfeed : x.receiver.feed y.sends = some (.ok ()))
    (hs : me.step x other .connect = some (me', other')) : Advances x y me other me' other' := by
  cases hp : me.phase with
  | connecting =>
    have hreceived := h.1.received
    rw [hp] at hreceived
    simp only [Peer.step, hp, Option.some.injEq, Prod.mk.injEq] at hs
    obtain ⟨rfl, rfl⟩ := hs
    refine h.move (fun _ => by rw [hp]; rfl) (by rw [hp]; exact id) (fun _ _ hsent => ?_) ?_ ?_
    · rw [hp] at hsent
      exact ⟨by rw [show other.received ++ me.wire = [] from hsent]; rfl, rfl⟩
    · exact ⟨y.sends, by rw [show me.received = [] from hreceived]; rfl, hfeed⟩
    · simp only [Phase.rank, hp]
      omega
  | exchanging | barrier | closing | closed => simp [Peer.step, hp] at hs

/-- A peer goes on. -/
theorem Sides.go (h : Sides x y me other) (hy : Message.binary sentinel ∉ y.sends)
    (hs : me.step x other .go = some (me', other')) : Advances x y me other me' other' := by
  obtain ⟨phase, hgo, heq⟩ := Option.map_eq_some_iff.1 hs
  cases heq
  have hreceived := h.1.received
  cases hp : me.phase with
  | exchanging sends sent receiver =>
    rw [hp] at hgo hreceived
    have hopen := h.other_open (by rw [hp]; exact id)
    have hsent := h.1.sent (by rw [hp]; rfl) hopen
    rw [hp] at hsent
    obtain ⟨hall, rfl⟩ := hsent
    obtain ⟨rest, hrest, hfeed⟩ := hreceived
    cases sends with
    | cons => simp [Phase.goOn] at hgo
    | nil =>
      cases receiver with
      | receive next => simp [Phase.goOn] at hgo
      | ret r =>
        cases hfeed
        cases hgo
        refine h.move (fun _ => by rw [hp]; rfl) (fun _ => trivial) (fun _ _ _ => ?_) ?_ ?_
        · rw [List.append_nil] at hall
          exact hall
        · refine ⟨nofun, nofun, fun _ hmem => hy ?_⟩
          rw [← hrest]
          exact List.mem_append_left _ hmem
        · simp [Phase.rank, hp]
  | barrier sent received =>
    rw [hp] at hgo hreceived
    obtain ⟨hs, hr, -⟩ := hreceived
    cases sent with
    | none => simp [Phase.goOn] at hgo
    | some r =>
      cases received with
      | none => simp [Phase.goOn] at hgo
      | some r' =>
        cases hs r rfl
        obtain ⟨rfl, hret⟩ := hr r' rfl
        cases hgo
        refine h.move (fun _ => by rw [hp]; rfl) (fun _ => trivial) (fun _ _ hsent => ?_)
          ⟨rfl, hret⟩ ?_
        · rw [hp] at hsent
          exact hsent
        · simp [Phase.rank, hp]
  | closing outcome =>
    rw [hp] at hgo hreceived
    cases hgo
    refine h.move nofun (fun _ => trivial) (fun _ _ _ => trivial) hreceived ?_
    simp [Phase.rank, hp]
  | connecting | closed => rw [hp] at hgo; cases hgo

/-- A peer whose other has closed is in the barrier, or behind it. -/
theorem Sides.returned_of_closed (h : Sides x y me other) (hclosed : other.phase.isClosed = true) :
    me.phase.Returned := by
  by_contra hme
  rw [h.other_open hme] at hclosed
  cases hclosed

/-- A message of a peer is taken, or refused. -/
theorem Sides.send (h : Sides x y me other) {refused : Bool}
    (hs : me.step x other (.send refused) = some (me', other')) :
    Advances x y me other me' other' := by
  have hreceived := h.1.received
  cases refused with
  | true =>
    simp only [Peer.step, if_true] at hs
    split at hs
    · next hclosed =>
      obtain ⟨q, hq, heq⟩ := Option.map_eq_some_iff.1 hs
      cases heq
      have hret := h.returned_of_closed hclosed
      cases hp : me.phase with
      | barrier sent received =>
        rw [hp] at hq hreceived
        cases sent with
        | some r => cases hq
        | none =>
          cases hq
          refine h.move (fun _ => by rw [hp]; rfl) (fun _ => trivial) (fun _ hopen => ?_) ?_ ?_
          · rw [hclosed] at hopen
            cases hopen
          · refine ⟨fun r he => ?_, hreceived.2⟩
            cases he
            rfl
          · simp [Phase.rank, hp]
      | exchanging => rw [hp] at hret; exact hret.elim
      | connecting | closing | closed => rw [hp] at hq; cases hq
    · cases hs
  | false =>
    obtain ⟨q, hq, heq⟩ := Option.map_eq_some_iff.1 hs
    cases heq
    cases hp : me.phase with
    | exchanging sends sent receiver =>
      rw [hp] at hq hreceived
      cases sends with
      | nil => cases hq
      | cons m sends =>
        cases hq
        refine ⟨⟨⟨fun _ hother => ?_, hreceived⟩, fun hother _ => ?_, ?_⟩, ?_⟩
        · have hsent := h.1.sent (by rw [hp]; rfl) hother
          rw [hp] at hsent
          refine ⟨?_, hsent.2⟩
          rw [← hsent.1]
          simp
        · exact h.2.sent hother (by rw [hp]; rfl)
        · exact h.2.received.mono (by rw [hp]; exact id)
        · simp only [Peer.work, Phase.rank, hp, List.length_append, List.length_cons,
            List.length_nil]
          omega
    | barrier sent received =>
      rw [hp] at hq hreceived
      cases sent with
      | some r => cases hq
      | none =>
        cases hq
        refine ⟨⟨⟨fun _ hother => ?_, ?_, hreceived.2⟩, fun hother _ => ?_, ?_⟩, ?_⟩
        · have hsent := h.1.sent (by rw [hp]; rfl) hother
          rw [hp] at hsent
          show other.received ++ (me.wire ++ [.binary sentinel]) = x.sends ++ [.binary sentinel]
          rw [← List.append_assoc, show other.received ++ me.wire = x.sends from hsent]
        · rintro r he
          cases he
          rfl
        · exact h.2.sent hother (by rw [hp]; rfl)
        · exact h.2.received.mono fun _ => trivial
        · simp [Peer.work, Phase.rank, hp]
          omega
    | connecting | closing | closed => rw [hp] at hq; cases hq

/-- A task of a peer receives `closed`. -/
theorem Sides.observeClosed (h : Sides x y me other)
    (hs : me.step x other .observeClosed = some (me', other')) :
    Advances x y me other me' other' := by
  simp only [Peer.step] at hs
  split at hs
  · next hclosed =>
    obtain ⟨phase, hgot, heq⟩ := Option.map_eq_some_iff.1 hs
    cases heq
    have hreceived := h.1.received
    have hret := h.returned_of_closed hclosed
    cases hp : me.phase with
    | barrier sent received =>
      rw [hp] at hgot hreceived
      cases received with
      | some r => cases hgot
      | none =>
        cases hgot
        refine h.move (fun _ => by rw [hp]; rfl) (fun _ => trivial) (fun _ hopen => ?_) ?_ ?_
        · rw [hclosed] at hopen
          cases hopen
        · refine ⟨hreceived.1, fun r he => ?_, nofun⟩
          cases he
          exact ⟨rfl, Phase.returned_of_isClosed hclosed⟩
        · simp [Phase.rank, hp]
    | exchanging => rw [hp] at hret; exact hret.elim
    | connecting | closing | closed => rw [hp] at hgot; cases hgot
  · cases hs

/-- The channel loses a message to a peer. -/
theorem Sides.lose (h : Sides x y me other) {k : Nat}
    (hs : me.step x other (.lose k) = some (me', other')) :
    Advances x y me other me' other' := by
  simp only [Peer.step, Option.ite_none_right_eq_some, Option.some.injEq, Prod.mk.injEq] at hs
  obtain ⟨⟨hclosed, hk⟩, rfl, rfl⟩ := hs
  have hno : ∀ {P : Prop}, other.phase.isClosed = false → P := by
    intro P hopen
    rw [hclosed] at hopen
    cases hopen
  refine ⟨⟨⟨fun _ hother => hno hother, h.1.received⟩, fun hother _ => hno hother,
    h.2.received⟩, ?_⟩
  simp only [Peer.work, List.length_eraseIdx, hk, if_true]
  omega

/-- A task of a peer in its exchange receives what the other's exchange has sent next. -/
theorem Sides.exchange_deliver (h : Sides x y me other) {sends : List Message}
    {sent : Except String Unit} {next : Message → Receiver}
    (hp : me.phase = .exchanging sends sent (.receive next)) (hw : other.wire = m :: wire) :
    ∃ rest, me.received ++ m :: rest = y.sends ∧ (next m).feed rest = some (.ok ()) := by
  have hreceived := h.1.received
  rw [hp] at hreceived
  obtain ⟨rest, hrest, hfeed⟩ := hreceived
  cases rest with
  | nil => cases hfeed
  | cons m' rest =>
    -- the other has sent a prefix of its messages and the sentinel
    have hopen := h.other_open (by rw [hp]; exact id)
    have hpre := (h.2.sent hopen (by rw [hp]; rfl)).of_open hopen
    rw [hw, ← hrest, List.append_assoc, List.prefix_append_right_inj, List.cons_append,
      List.cons_prefix_cons] at hpre
    obtain ⟨rfl, -⟩ := hpre
    exact ⟨rest, hrest, hfeed⟩

/-- A task of a peer receives a message. -/
theorem Sides.deliver (h : Sides x y me other) (hy : Message.binary sentinel ∉ y.sends)
    (hs : me.step x other .deliver = some (me', other')) : Advances x y me other me' other' := by
  simp only [Peer.step] at hs
  split at hs
  · next m wire hw =>
    obtain ⟨phase, hgot, heq⟩ := Option.map_eq_some_iff.1 hs
    cases heq
    have hreceived := h.1.received
    -- what the other has sent stays the same, and one message of it is less on its way
    have hgoes : phase.isClosed = me.phase.isClosed → (me.phase.Returned → phase.Returned) →
        (me.phase.isClosed = false → other.phase.isClosed = false →
          me.phase.Sent x (other.received ++ me.wire) →
          phase.Sent x (other.received ++ me.wire)) →
        phase.Received y (me.received ++ [m]) other.phase → phase.rank x ≤ me.phase.rank x →
        Advances x y me other { me with phase, received := me.received ++ [m] }
          { other with wire } := by
      intro hclosed hmono hsent hrec hrank
      refine ⟨⟨⟨fun hme hother => ?_, hrec⟩, fun hother hme => ?_, h.2.received.mono hmono⟩, ?_⟩
      · rw [hclosed] at hme
        exact hsent hme hother (h.1.sent hme hother)
      · rw [hclosed] at hme
        have hflow := h.2.sent hother hme
        rw [hw] at hflow
        simpa using hflow
      · simp only [Peer.work, hw, List.length_cons]
        omega
    cases hp : me.phase with
    | exchanging sends sent receiver =>
      rw [hp] at hgot hreceived
      cases receiver with
      | ret r => cases hgot
      | receive next =>
        obtain ⟨rest, hrest, hfeed⟩ := h.exchange_deliver hp hw
        obtain ⟨-, hsome⟩ := Option.ite_none_right_eq_some.1 hgot
        cases hsome
        refine hgoes (by rw [hp]; rfl) (by rw [hp]; exact id) (fun _ _ hsent => ?_)
          ⟨rest, by simpa using hrest, hfeed⟩ ?_
        · rw [hp] at hsent
          exact hsent
        · rw [hp]
          exact Nat.le_refl _
    | barrier sent received =>
      rw [hp] at hgot hreceived
      obtain ⟨hsent, -, hno⟩ := hreceived
      cases received with
      | some r => cases hgot
      | none =>
        cases hgot
        refine hgoes (by rw [hp]; rfl) (fun _ => trivial) (fun _ _ hflow => ?_) ⟨hsent, ?_, ?_⟩ ?_
        · rw [hp] at hflow
          cases sent with
          | none | some => exact hflow
        · intro r he
          split at he
          · next hm =>
            cases he
            refine ⟨rfl, ?_⟩
            -- the sentinel comes from a peer that has left its exchange
            cases hclosed : other.phase.isClosed with
            | true => exact Phase.returned_of_isClosed hclosed
            | false =>
              refine (h.2.sent hclosed (by rw [hp]; rfl)).returned hy ?_
              rw [hw, hm]
              simp
          · cases he
        · intro hnone hmem
          split at hnone
          · cases hnone
          · next hm =>
            obtain hmem | hmem := List.mem_append.1 hmem
            · exact hno rfl hmem
            · exact hm (List.mem_singleton.1 hmem).symm
        · by_cases hm : m = .binary sentinel <;> simp [Phase.rank, hp, hm]
    | connecting | closing | closed => rw [hp] at hgot; cases hgot
  · cases hs

/-- A step of a peer keeps what holds of the two, and comes nearer to the end. -/
theorem Sides.step (h : Sides x y me other) (hfeed : x.receiver.feed y.sends = some (.ok ()))
    (hy : Message.binary sentinel ∉ y.sends) {e : PeerEvent}
    (hs : me.step x other e = some (me', other')) : Advances x y me other me' other' := by
  cases e with
  | connect => exact h.connect hfeed hs
  | send refused => exact h.send hs
  | deliver => exact h.deliver hy hs
  | observeClosed => exact h.observeClosed hs
  | lose k => exact h.lose hs
  | go => exact h.go hy hs

/-! ## Neither peer is stuck -/

/-- The peer has a next event, without a loss. -/
def CanGo (x : Exchange) (me other : Peer) : Prop :=
  ∃ e, (∀ k, e ≠ .lose k) ∧ (me.step x other e).isSome

/-- A peer that cannot go on, and has not closed, waits for a message: in its exchange, with all its
own messages sent, or in the barrier, with the sentinel sent and the other not closed. -/
theorem waits_of_not_canGo (hopen : me.phase.isClosed = false) (hno : ¬ CanGo x me other) :
    other.wire = [] ∧
      ((∃ sent next, me.phase = .exchanging [] sent (.receive next)) ∨
        ∃ r, me.phase = .barrier (some r) none ∧ other.phase.isClosed = false) := by
  have hstop : ∀ e, (∀ k, e ≠ .lose k) → (me.step x other e).isSome = false := by
    intro e he
    cases hs : (me.step x other e).isSome with
    | false => rfl
    | true => exact absurd ⟨e, he, hs⟩ hno
  have hconnect := hstop .connect nofun
  have hsend := hstop (.send false) nofun
  have hdeliver := hstop .deliver nofun
  have hobserve := hstop .observeClosed nofun
  have hgo := hstop .go nofun
  cases hp : me.phase with
  | connecting => simp [Peer.step, hp] at hconnect
  | exchanging sends sent receiver =>
    cases sends with
    | cons m sends => simp [Peer.step, hp, Phase.sendReturned] at hsend
    | nil =>
      cases receiver with
      | ret r =>
        cases hr : sent.bind fun _ => r <;> simp [Peer.step, hp, Phase.goOn, hr] at hgo
      | receive next =>
        cases hw : other.wire with
        | nil => exact ⟨rfl, .inl ⟨sent, next, rfl⟩⟩
        | cons m wire => simp [Peer.step, hp, hw, Phase.receiveReturned] at hdeliver
  | barrier sent received =>
    cases sent with
    | none => simp [Peer.step, hp, Phase.sendReturned] at hsend
    | some r =>
      cases received with
      | some r' => simp [Peer.step, hp, Phase.goOn] at hgo
      | none =>
        cases hclosed : other.phase.isClosed with
        | true => simp [Peer.step, hp, hclosed, Phase.receiveReturned] at hobserve
        | false =>
          cases hw : other.wire with
          | nil => exact ⟨rfl, .inr ⟨r, rfl, rfl⟩⟩
          | cons m wire => simp [Peer.step, hp, hw, Phase.receiveReturned] at hdeliver
  | closing outcome => simp [Peer.step, hp, Phase.goOn] at hgo
  | closed outcome => rw [hp] at hopen; cases hopen

/-- A peer has received all messages of one that waits and has none on its way. -/
theorem Sides.received_of_waits (h : Sides x y me other) (hme : me.phase.isClosed = false)
    (hw : other.wire = [])
    (hwaits : (∃ sent next, other.phase = .exchanging [] sent (.receive next)) ∨
      ∃ r, other.phase = .barrier (some r) none ∧ me.phase.isClosed = false) :
    y.sends <+: me.received := by
  obtain ⟨sent, next, hp⟩ | ⟨r, hp, -⟩ := hwaits
  · have hsent := h.2.sent (by rw [hp]; rfl) hme
    rw [hp, hw, List.append_nil] at hsent
    exact ⟨[], (congrArg (· ++ []) hsent.1.symm).trans (by simp)⟩
  · have hsent := h.2.sent (by rw [hp]; rfl) hme
    rw [hp, hw, List.append_nil] at hsent
    rw [show me.received = y.sends ++ [.binary sentinel] from hsent]
    exact List.prefix_append _ _

/-- A peer that waits in its exchange has not received all messages of the other. -/
theorem Sides.not_starved (h : Sides x y me other) {sent : Except String Unit}
    {next : Message → Receiver} (hp : me.phase = .exchanging [] sent (.receive next)) :
    ¬ y.sends <+: me.received := by
  intro hall
  have hreceived := h.1.received
  rw [hp] at hreceived
  obtain ⟨rest, hrest, hfeed⟩ := hreceived
  have hlen := hall.length_le
  rw [← hrest, List.length_append] at hlen
  have hnil : rest = [] := List.eq_nil_of_length_eq_zero (by omega)
  subst hnil
  cases hfeed

/-- A peer can go on, beside one that cannot. -/
theorem Sides.canGo_of_open (h : Sides x y me other) (hme : me.phase.isClosed = false)
    (hother : ¬ CanGo y other me) : CanGo x me other := by
  by_contra hno
  obtain ⟨hw, hwaits⟩ := waits_of_not_canGo hme hno
  have hopen : other.phase.isClosed = false := by
    obtain ⟨sent, next, hp⟩ | ⟨r, -, hopen⟩ := hwaits
    · exact h.other_open (by rw [hp]; exact id)
    · exact hopen
  obtain ⟨hw', hwaits'⟩ := waits_of_not_canGo hopen hother
  have hsym : Sides y x other me := ⟨h.2, h.1⟩
  have hrec := h.received_of_waits hme hw hwaits'
  have hrec' := hsym.received_of_waits hopen hw' hwaits
  obtain ⟨sent, next, hp⟩ | ⟨r, hp, -⟩ := hwaits
  · exact h.not_starved hp hrec
  · obtain ⟨sent', next', hp'⟩ | ⟨r', hp', -⟩ := hwaits'
    · exact hsym.not_starved hp' hrec'
    · -- both are in the barrier, and the sentinel of the other was received
      have hreceived := h.1.received
      have hsent := h.2.sent hopen hme
      rw [hp] at hreceived
      rw [hp', hw, List.append_nil] at hsent
      refine hreceived.2.2 rfl ?_
      rw [show me.received = y.sends ++ [.binary sentinel] from hsent]
      simp

end

/-! ## The two peers -/

namespace TwoPeerTest

variable {p : TwoPeerTest} {s s' : Role → Peer} {a : Role × PeerEvent}

/-- What holds of the two peers of a test. -/
def Inv (p : TwoPeerTest) (s : Role → Peer) : Prop :=
  ∀ role, Sides (p.exchange role) (p.exchange role.peer) (s role) (s role.peer)

/-- An upper bound on the events of the two. -/
def work (p : TwoPeerTest) (s : Role → Peer) : Nat :=
  (s .offerer).work (p.exchange .offerer) + (s .answerer).work (p.exchange .answerer)

/-- Two peers with the same knobs succeed in every two-peer test of the corpus, over a channel whose
label both observe. -/
theorem succeeds_of_same (ht : p.testId ∈ twoPeerTests)
    (hlabel : ∀ role, p.label role = channelLabel)
    (hcount : ∀ role, p.messageCount role = p.messageCount role.peer)
    (hsize : ∀ role, p.messageSize role = p.messageSize role.peer) (role : Role) :
    p.Succeeds role := by
  refine Receiver.feed_append ?_ _
  rw [exchange, exchange, hlabel, hlabel, ← hcount, ← hsize]
  exact exchange_accepts ht _ _

theorem inv_start (p : TwoPeerTest) : p.Inv startPeers :=
  fun _ => ⟨⟨fun _ _ => rfl, rfl⟩, ⟨fun _ _ => rfl, rfl⟩⟩

theorem Inv.step (h : p.Inv s) (hok : ∀ role, p.Succeeds role) (hs : stepPeers p s a = some s') :
    p.Inv s' ∧ p.work s' < p.work s := by
  obtain ⟨role, e⟩ := a
  obtain ⟨q, hq, rfl⟩ := Option.map_eq_some_iff.1 hs
  have hfeed := exchange_refuses _ _ _ _ _ (hok role)
  obtain ⟨hsides, hwork⟩ := (h role).step hfeed (sentinel_not_mem_sends _ _ _ _) hq
  cases role with
  | offerer =>
    refine ⟨fun role => ?_, hwork⟩
    cases role with
    | offerer => exact hsides
    | answerer => exact ⟨hsides.2, hsides.1⟩
  | answerer =>
    refine ⟨fun role => ?_, ?_⟩
    · cases role with
      | offerer => exact ⟨hsides.2, hsides.1⟩
      | answerer => exact hsides
    · simp only [work]
      rw [Nat.add_comm, Nat.add_comm ((s .offerer).work _)]
      exact hwork

/-- Unless both have closed, one of the two can go on. -/
theorem Inv.not_stuck (h : p.Inv s) (hopen : ∃ role, (s role).phase.isClosed = false) :
    ∃ a s', (∀ k, a.2 ≠ .lose k) ∧ stepPeers p s a = some s' := by
  obtain ⟨role, hopen⟩ := hopen
  have hgo : ∃ role, CanGo (p.exchange role) (s role) (s role.peer) := by
    by_cases hother : CanGo (p.exchange role.peer) (s role.peer) (s role)
    · refine ⟨role.peer, ?_⟩
      rw [Role.peer_peer]
      exact hother
    · exact ⟨role, (h role).canGo_of_open hopen hother⟩
  obtain ⟨role, e, he, hsome⟩ := hgo
  obtain ⟨q, hq⟩ := Option.isSome_iff_exists.1 hsome
  exact ⟨(role, e), _, he, Option.map_eq_some_iff.2 ⟨q, hq, rfl⟩⟩

end TwoPeerTest

/-- The two peers of a test whose exchanges both succeed, in any order of their steps and of what
the channel does: a peer that has closed is beside one whose exchange has returned; so `closed` is
returned to no call of an exchange; the messages that an exchange has received are the first of the
other's exchange, and not the sentinel; both report that the test passed; and unless both have
closed, one of the two can go on, in a run that is no longer than a bound by the numbers of
messages. -/
theorem barrier_safe (p : TwoPeerTest) (hok : ∀ role, p.Succeeds role)
    {as : List (Role × PeerEvent)} {s : Role → Peer}
    (h : Runs.run (stepPeers p) startPeers as = some s) :
    (∀ role, (s role).phase.isClosed = true → (s role.peer).phase.Returned) ∧
    (∀ role s', stepPeers p s (role, .observeClosed) = some s' ∨
      stepPeers p s (role, .send true) = some s' → (s role).phase.Returned) ∧
    (∀ role, ¬ (s role).phase.Returned →
      (s role).received <+: (p.exchange role.peer).sends ∧
        Message.binary sentinel ∉ (s role).received) ∧
    (∀ role outcome, (s role).phase = .closing outcome ∨ (s role).phase = .closed outcome →
      outcome = .pass) ∧
    ((∃ role, (s role).phase.isClosed = false) →
      ∃ a s', (∀ k, a.2 ≠ .lose k) ∧ stepPeers p s a = some s') ∧
    as.length ≤ 18 + 2 * (p.exchange .offerer).sends.length +
      2 * (p.exchange .answerer).sends.length := by
  obtain ⟨hinv, hlen⟩ := Runs.descends p.Inv (fun _ => True) p.work
    (fun _ _ _ hi _ hs => TwoPeerTest.Inv.step hi hok hs) p.inv_start (fun _ _ => trivial) h
  refine ⟨fun role hclosed => ?_, fun role s' hs => ?_, fun role hret => ?_,
    fun role outcome hp => ?_, hinv.not_stuck, ?_⟩
  · have hsides := hinv role.peer
    rw [Role.peer_peer] at hsides
    exact hsides.returned_of_closed hclosed
  · refine (hinv role).returned_of_closed ?_
    obtain hs | hs := hs
    all_goals
      obtain ⟨q, hq, -⟩ := Option.map_eq_some_iff.1 hs
      simp only [Peer.step, if_true, Option.ite_none_right_eq_some] at hq
      exact hq.1
  · have hreceived := (hinv role).1.received
    have hpre : (s role).received <+: (p.exchange role.peer).sends := by
      cases hp : (s role).phase with
      | connecting =>
        rw [hp] at hreceived
        rw [show (s role).received = [] from hreceived]
        exact List.nil_prefix
      | exchanging sends sent receiver =>
        rw [hp] at hreceived
        obtain ⟨rest, hrest, -⟩ := hreceived
        exact ⟨rest, hrest⟩
      | barrier | closing | closed => rw [hp] at hret; exact absurd trivial hret
    exact ⟨hpre, fun hmem => sentinel_not_mem_sends _ _ _ _ (hpre.subset hmem)⟩
  · have hreceived := (hinv role).1.received
    obtain hp | hp := hp
    all_goals
      rw [hp] at hreceived
      exact hreceived.1
  · simp only [TwoPeerTest.work, Peer.work, startPeers, Phase.rank, List.length_nil] at hlen
    omega

/-- A test of one message in which the answerer leaves the barrier by the offerer's close. -/
def binaryTest : TwoPeerTest where
  testId := "binary-message"
  label _ := channelLabel
  messageCount _ := 1
  messageSize _ := 16

/-- The offerer has the sentinel and closes; the answerer loses the offerer's and passes as well. -/
theorem barrier_safe_of_loss :
    ∃ s, Runs.run (stepPeers binaryTest) startPeers
        [(.offerer, .connect), (.offerer, .send false), (.answerer, .connect),
          (.answerer, .send false), (.answerer, .deliver), (.offerer, .deliver), (.answerer, .go),
          (.answerer, .send false), (.offerer, .go), (.offerer, .send false), (.offerer, .deliver),
          (.offerer, .go), (.offerer, .go), (.answerer, .lose 0), (.answerer, .observeClosed),
          (.answerer, .go), (.answerer, .go)] = some s ∧
      (s .answerer).phase = .closed .pass := by
  have hrun : ∃ s, Runs.run (stepPeers binaryTest) startPeers
        [(.offerer, .connect), (.offerer, .send false), (.answerer, .connect),
          (.answerer, .send false), (.answerer, .deliver), (.offerer, .deliver), (.answerer, .go),
          (.answerer, .send false), (.offerer, .go), (.offerer, .send false), (.offerer, .deliver),
          (.offerer, .go), (.offerer, .go), (.answerer, .lose 0), (.answerer, .observeClosed),
          (.answerer, .go), (.answerer, .go)] = some s ∧
      ∃ outcome, (s .answerer).phase = .closed outcome := ⟨_, rfl, _, rfl⟩
  obtain ⟨s, h, outcome, hp⟩ := hrun
  have hok : ∀ role, binaryTest.Succeeds role :=
    TwoPeerTest.succeeds_of_same (by decide) (fun _ => rfl) (fun _ => rfl) fun _ => rfl
  obtain ⟨-, -, -, hpass, -⟩ := barrier_safe binaryTest hok h
  refine ⟨s, h, ?_⟩
  rw [hp, hpass .answerer outcome (.inr hp)]

end WebrtcDatachannels.Suite
