import WebrtcDatachannels.Host.DataChannel

/-!
# Sending on a Wasmtime data channel

`wasmtime-impl/src/host.rs`, outbound side. A `Sending` is one channel with its `send` and
`send_via_stream` calls, its wiring, the elements that the guest's streams deliver, and the close
signal of its connection. A call is cut at each of its awaits, so that the signal may fire between
any two. Both kinds of call look at the signal once and then await before they hand a message to the
transport, so a close that comes in between is not heeded: a call in flight may be blocked, hand a
message over, or end otherwise than with `Closed` (`Sending.Completes`). `send_close_iff` says along
which runs it is heeded.
-/

namespace WebrtcDatachannels.Host

/-- What is handed to the transport, as `send_text` or `send`. Source: `send_channel_message`. -/
def outgoing (isString : Bool) (data : Bytes) : Except WebrtcError Message :=
  if isString then
    match fromUtf8 data with
    | some text => .ok (.string text)
    | none => .error (.other ("string message is not valid UTF-8: " ++ utf8Error data))
  else .ok (.binary data)

/-- The error of a failed send, by whether the channel is still open. Source:
`send_channel_message`. -/
def sendError (reason : String) (isOpen : Bool) : WebrtcError :=
  if isOpen then .other reason else .closed

/-- The kind and the bytes of a message. Source: `HostDataChannelWithStore::send`. -/
def intoParts : Message → Bool × Bytes
  | .binary data => (false, data)
  | .string text => (true, intoBytes text)

/-- An element of an outbound stream, with its payload once that is drained. Source:
`PendingSend`. -/
structure PendingSend where
  isString : Bool
  length : Nat
  payload : Option Bytes
deriving DecidableEq, Repr

/-- The message of an element whose payload is drained. Source:
`HostDataChannelWithStore::send_via_stream`. -/
def PendingSend.outgoing (p : PendingSend) (data : Bytes) : Except WebrtcError Message :=
  if data.length ≠ p.length then
    .error (.other ("stream-message payload was " ++ toString data.length ++
      " bytes but length declared " ++ toString p.length))
  else Host.outgoing p.isString data

/-! ## Calls -/

/-- Where a call is: made, or awaiting the wiring, the next element, the payload of the one taken
last, the transport's send, or its `ready_state`; or returned. -/
inductive Stage where
  | start
  | wiring
  | next
  | payload
  | handing
  | checking (reason : String)
  | done (result : Except WebrtcError Unit)
deriving DecidableEq

/-- The call is past its wiring and has not returned. -/
def Stage.past : Stage → Bool
  | .next | .payload | .handing | .checking _ => true
  | .start | .wiring | .done _ => false

/-- A `send` of a message or, without one, a `send_via_stream`: its stage, the elements delivered to
it, how many it has taken and whether more may come, how many it has sent, and, for one that was in
flight when the connection closed, how many it had handed to the transport by then. -/
structure SendCall where
  message : Option Message
  stage : Stage
  elements : List PendingSend
  taken : Nat
  exhausted : Bool
  sent : Nat
  atFire : Option Nat
deriving DecidableEq

namespace SendCall

/-- A call that has just been made. -/
def new (message : Option Message) : SendCall :=
  { message, stage := .start, elements := [], taken := 0, exhausted := false, sent := 0,
    atFire := none }

/-- What a `send_via_stream` returns. -/
def streamResult (c : SendCall) : Option (Except SendViaStreamError Unit) :=
  match c.stage with
  | .done (.ok ()) => some (.ok ())
  | .done (.error error) => some (.error { error, sent := c.sent })
  | _ => none

/-- The messages a call has handed to the transport without a failure: those sent and the one in
flight. -/
def handed (c : SendCall) : Nat :=
  match c.stage with
  | .handing => c.sent + 1
  | _ => c.sent

/-- The call goes on to the transport, or returns. -/
def hand (c : SendCall) : Except WebrtcError Message → SendCall × Option Message
  | .ok m => ({ c with stage := .handing }, some m)
  | .error e => ({ c with stage := .done (.error e) }, none)

/-- A call goes on from its await, if it can, up to the next one; with the message it hands to the
transport on the way. Source: `HostDataChannelWithStore::{send, send_via_stream}`. -/
def poll (c : SendCall) (wired : Option (Except WebrtcError Unit)) (closed : Bool) :
    Option (SendCall × Option Message) :=
  match c.stage with
  | .start =>
    if c.message.isSome && closed then some ({ c with stage := .done (.error .closed) }, none)
    else some ({ c with stage := .wiring }, none)
  | .wiring =>
    match wired with
    | none => none
    | some (.error e) => some ({ c with stage := .done (.error e) }, none)
    | some (.ok ()) =>
      match c.message with
      | some m => some (c.hand (outgoing (intoParts m).1 (intoParts m).2))
      | none => some ({ c with stage := .next }, none)
  | .next =>
    match c.elements[c.taken]? with
    | some _ =>
      some
        ({ c with
          taken := c.taken + 1
          stage := if closed then .done (.error .closed) else .payload }, none)
    | none => if c.exhausted then some ({ c with stage := .done (.ok ()) }, none) else none
  | .payload =>
    match c.elements[c.taken - 1]? with
    | none => none
    | some p => p.payload.map fun data => c.hand (p.outgoing data)
  | .handing | .checking _ | .done _ => none

/-- The transport's send resolves. Source: `send_channel_message`. -/
def answered (c : SendCall) (result : Except String Unit) : Option SendCall :=
  match c.stage with
  | .handing =>
    match result with
    | .error reason => some { c with stage := .checking reason }
    | .ok () =>
      match c.message with
      | some _ => some { c with stage := .done (.ok ()) }
      | none => some { c with stage := .next, sent := c.sent + 1 }
  | _ => none

/-- `ready_state` resolves. Source: `send_channel_message`. -/
def stated (c : SendCall) (isOpen : Bool) : Option SendCall :=
  match c.stage with
  | .checking reason => some { c with stage := .done (.error (sendError reason isOpen)) }
  | _ => none

/-- The guest's stream is piped to the call. -/
def Piped (c : SendCall) : Prop :=
  match c.stage with
  | .next | .payload | .handing | .checking _ => c.message = none
  | .start | .wiring | .done _ => False

instance (c : SendCall) : Decidable c.Piped := by
  unfold Piped
  cases c.stage <;> infer_instance

/-- The call waits for the channel to open, or for another element. -/
def Blocked (c : SendCall) (wired : Option (Except WebrtcError Unit)) : Prop :=
  c.stage = .wiring ∧ wired = none ∨
    c.stage = .next ∧ c.elements.length ≤ c.taken ∧ c.exhausted = false

/-- The call has returned. -/
def Returned (c : SendCall) : Prop := ∃ r, c.stage = .done r

instance (c : SendCall) : Decidable c.Returned :=
  match h : c.stage with
  | .done r => isTrue ⟨r, h⟩
  | .start | .wiring | .next | .payload | .handing | .checking _ =>
    isFalse fun ⟨r, hr⟩ => by rw [h] at hr; cases hr

/-- The close signal fires: a call in flight is marked with what it has handed over. -/
def mark (c : SendCall) : SendCall :=
  if c.Returned then c else { c with atFire := some c.handed }

/-- What a poll of a call may do. -/
inductive Polled (c : SendCall) (wired : Option (Except WebrtcError Unit)) (closed : Bool) :
    SendCall → Option Message → Prop where
  | refused (hs : c.stage = .start) (hm : c.message.isSome = true) (hc : closed = true) :
      Polled c wired closed { c with stage := .done (.error .closed) } none
  | waits (hs : c.stage = .start) (hm : c.message = none ∨ closed = false) :
      Polled c wired closed { c with stage := .wiring } none
  | failed {e : WebrtcError} (hs : c.stage = .wiring) (hw : wired = some (.error e)) :
      Polled c wired closed { c with stage := .done (.error e) } none
  | hands {m : Message} {c' : SendCall} {o : Option Message} (hs : c.stage = .wiring)
      (hw : wired = some (.ok ())) (hm : c.message = some m)
      (hr : c.hand (outgoing (intoParts m).1 (intoParts m).2) = (c', o)) :
      Polled c wired closed c' o
  | pipes (hs : c.stage = .wiring) (hw : wired = some (.ok ())) (hm : c.message = none) :
      Polled c wired closed { c with stage := .next } none
  | takes (hs : c.stage = .next) (ht : c.taken < c.elements.length) :
      Polled c wired closed
        { c with
          taken := c.taken + 1
          stage := if closed then .done (.error .closed) else .payload } none
  | ends (hs : c.stage = .next) (ht : c.elements.length ≤ c.taken) (he : c.exhausted = true) :
      Polled c wired closed { c with stage := .done (.ok ()) } none
  | pays {p : PendingSend} {data : Bytes} {c' : SendCall} {o : Option Message}
      (hs : c.stage = .payload) (hr : c.hand (p.outgoing data) = (c', o)) :
      Polled c wired closed c' o

section
variable {c c' : SendCall} {wired : Option (Except WebrtcError Unit)} {closed : Bool}
  {m : Option Message}

theorem polled_of_poll (h : c.poll wired closed = some (c', m)) : c.Polled wired closed c' m := by
  unfold poll at h
  split at h
  · next hs =>
    split at h
    · next hc =>
      cases h
      rw [Bool.and_eq_true] at hc
      exact .refused hs hc.1 hc.2
    · next hc =>
      cases h
      rw [Bool.and_eq_true, not_and_or] at hc
      refine .waits hs (hc.imp (fun h => ?_) eq_false_of_ne_true)
      exact Option.isNone_iff_eq_none.1 (Option.isSome_eq_false_iff.1 (eq_false_of_ne_true h))
  · next hs =>
    split at h
    · cases h
    · next e => cases h; exact .failed hs rfl
    · split at h
      · next m' hm => exact .hands hs rfl hm (Option.some.inj h)
      · next hm => cases h; exact .pipes hs rfl hm
  · next hs =>
    split at h
    · next p hp => cases h; exact .takes hs (List.getElem?_eq_some_iff.1 hp).1
    · next hp =>
      split at h
      · next he => cases h; exact .ends hs (List.getElem?_eq_none_iff.1 hp) he
      · cases h
  · next hs =>
    split at h
    · cases h
    · next p hp =>
      obtain ⟨data, -, hr⟩ := Option.map_eq_some_iff.1 h
      exact .pays hs hr
  · cases h
  · cases h
  · cases h

end

end SendCall

/-! ## The system -/

/-- A message handed to the transport, and whether the connection had closed by then. -/
structure Handover where
  call : Nat
  message : Message
  late : Bool
deriving DecidableEq

/-- One channel with its calls. -/
structure Sending where
  wired : Option (Except WebrtcError Unit)
  closed : Bool
  calls : List SendCall
  transport : List Handover
deriving DecidableEq

/-- The wiring resolves; the connection closes; a call is made, goes on, or gets the transport's or
`ready_state`'s answer; an element or its payload arrives on a call's stream, or the stream ends. -/
inductive SendingAct where
  | wire (result : Except WebrtcError Unit)
  | fire
  | send (message : Message)
  | sendViaStream
  | poll (k : Nat)
  | answer (k : Nat) (result : Except String Unit)
  | state (k : Nat) (isOpen : Bool)
  | element (k : Nat) (isString : Bool) (length : Nat)
  | payload (k i : Nat) (data : Bytes)
  | exhaust (k : Nat)
deriving DecidableEq

namespace Sending

/-- A channel that is not wired yet. -/
def start : Sending := { wired := none, closed := false, calls := [], transport := [] }

/-- The guest's streams move: what a call awaits on its stream changes, and nothing else. -/
def feed (s : Sending) (k : Nat) (f : SendCall → Option SendCall) : Option Sending :=
  ((s.calls[k]?).bind f).map fun c => { s with calls := s.calls.set k c }

/-- One step. After a connection close the transport fails no send. -/
def step (s : Sending) : SendingAct → Option Sending
  | .wire result => if s.wired = none then some { s with wired := some result } else none
  | .fire =>
    some
      { s with closed := true, calls := if s.closed then s.calls else s.calls.map SendCall.mark }
  | .send message => some { s with calls := s.calls ++ [.new (some message)] }
  | .sendViaStream => some { s with calls := s.calls ++ [.new none] }
  | .poll k =>
    ((s.calls[k]?).bind (·.poll s.wired s.closed)).map fun p =>
      { s with
        calls := s.calls.set k p.1
        transport := s.transport ++ p.2.toList.map fun m => ⟨k, m, s.closed⟩ }
  | .answer k result =>
    if s.closed = true → result = .ok () then s.feed k (·.answered result) else none
  | .state k isOpen => s.feed k (·.stated isOpen)
  | .element k isString length =>
    s.feed k fun c =>
      if c.Piped ∧ c.exhausted = false then
        some { c with elements := c.elements ++ [{ isString, length, payload := none }] }
      else none
  | .payload k i data =>
    s.feed k fun c =>
      (c.elements[i]?).bind fun p =>
        if p.payload = none then
          some { c with elements := c.elements.set i { p with payload := some data } }
        else none
  | .exhaust k => s.feed k fun c => if c.Piped then some { c with exhausted := true } else none

end Sending

/-! ## Calls after the close -/

theorem outgoing_error {isString : Bool} {data : Bytes} {e : WebrtcError}
    (h : outgoing isString data = .error e) : e ≠ .closed := by
  unfold outgoing at h
  split at h
  · split at h <;> cases h
    nofun
  · cases h

theorem PendingSend.outgoing_error {p : PendingSend} {data : Bytes} {e : WebrtcError}
    (h : p.outgoing data = .error e) : e ≠ .closed := by
  unfold PendingSend.outgoing at h
  split at h
  · cases h; nofun
  · exact Host.outgoing_error h

namespace SendCall

variable {c c' : SendCall} {wired : Option (Except WebrtcError Unit)} {closed : Bool}
  {o : Option Message}

/-- A call that was in flight at the close can still end with `Closed`. A `send` that has not looked
at the signal does; a `send_via_stream` that has not may find its wiring failed so, and one that
awaits the wiring does; one that awaits an element has one queued; a message in flight is that of a
stream, which has an element queued or may get one; and no payload is awaited. -/
def Closable (c : SendCall) (wired : Option (Except WebrtcError Unit)) : Prop :=
  match c.stage with
  | .start => c.message = none → wired = none ∨ wired = some (.error .closed)
  | .wiring => wired = some (.error .closed)
  | .next => c.taken < c.elements.length
  | .payload => False
  | .handing => c.message = none ∧ (c.taken < c.elements.length ∨ c.exhausted = false)
  | .checking _ => True
  | .done r => r = .error .closed

/-- A call that goes on to the transport hands a message over, or returns what is wrong with it. -/
theorem hand_cases {r : Except WebrtcError Message} (h : c.hand r = (c', o)) :
    (∃ m, o = some m ∧ c' = { c with stage := .handing }) ∨
      ∃ e, r = .error e ∧ o = none ∧ c' = { c with stage := .done (.error e) } := by
  cases r with
  | ok m => cases h; exact .inl ⟨m, rfl, rfl⟩
  | error e => cases h; exact .inr ⟨e, rfl, rfl, rfl⟩

/-- What a call has been fed: before it is piped nothing, and what it has taken. -/
structure Fed (c : SendCall) : Prop where
  unpiped : c.stage = .start ∨ c.stage = .wiring → c.elements = [] ∧ c.exhausted = false
  taken : c.taken ≤ c.elements.length

/-- The call is in order after the close: it is not blocked; in flight at the close, it can still
end with `Closed` and has handed nothing over since; made after the close, it is not past its
wiring. -/
structure Settled (c : SendCall) (wired : Option (Except WebrtcError Unit)) : Prop where
  awake : ¬ c.Blocked wired
  closable : ∀ n, c.atFire = some n → c.Closable wired
  count : ∀ n, c.atFire = some n → c.message = none → c.handed = n
  fresh : c.atFire = none →
    c.stage = .start ∨ c.stage = .wiring ∧ c.message = none ∨ c.Returned

/-- A poll after the close heeds it: a `send_via_stream` starts on a wiring that has resolved, and
goes on from one that has failed. -/
def PollHeeds (c : SendCall) (wired : Option (Except WebrtcError Unit)) : Prop :=
  match c.stage with
  | .start => c.message = none → wired ≠ none
  | .wiring => wired ≠ some (.ok ())
  | .next | .payload | .handing | .checking _ | .done _ => True

/-- A call that is not before its wiring was in flight at the close. -/
theorem Settled.marked (hs : c.Settled wired)
    (h : ¬ (c.stage = .start ∨ c.stage = .wiring ∧ c.message = none ∨ c.Returned)) :
    ∃ n, c.atFire = some n := by
  cases hf : c.atFire with
  | none => exact absurd (hs.fresh hf) h
  | some n => exact ⟨n, rfl⟩

theorem Settled.marked_past (hs : c.Settled wired) (h : c.stage.past = true) :
    ∃ n, c.atFire = some n := by
  refine hs.marked ?_
  rintro (h' | ⟨h', -⟩ | ⟨r, h'⟩) <;> rw [h'] at h <;> cases h

/-- The call goes against the close: it hands a message over, is blocked, or was in flight at the
close and can no longer end with `Closed`. -/
def Strays (c : SendCall) (wired : Option (Except WebrtcError Unit)) (o : Option Message) : Prop :=
  o ≠ none ∨ c.Blocked wired ∨ ∃ n, c.atFire = some n ∧ ¬ c.Closable wired

/-- A call that has returned is in order if it returned `Closed` or was made after the close. -/
theorem settled_done {e : WebrtcError} (hst : c.stage = .done (.error e))
    (hcl : ∀ n, c.atFire = some n → e = .closed ∧ (c.message = none → c.sent = n)) :
    c.Settled wired := by
  refine ⟨?_, fun n hn => ?_, fun n hn hm => ?_, fun _ => .inr (.inr ⟨_, hst⟩)⟩
  · rintro (⟨h, -⟩ | ⟨h, -⟩) <;> rw [hst] at h <;> cases h
  · rw [Closable, hst, (hcl n hn).1]
  · rw [handed, hst]
    exact (hcl n hn).2 hm

/-- Between two messages a call has handed over what it has sent. -/
theorem handed_eq_sent (h : c.stage ≠ .handing) : c.handed = c.sent := by
  unfold handed
  split
  · next h' => exact absurd h' h
  · rfl

/-- A poll that heeds the close leaves the call in order. -/
theorem Polled.settled (hp : c.Polled wired true c' o) (hs : c.Settled wired)
    (hC : c.PollHeeds wired) : c'.Settled wired ∧ o = none := by
  have hcount : c.stage ≠ .handing → ∀ n, c.atFire = some n → c.message = none → c.sent = n :=
    fun h n hn hm => (handed_eq_sent h).symm.trans (hs.count n hn hm)
  cases hp with
  | refused h =>
    exact ⟨settled_done rfl fun n hn => ⟨rfl, hcount (by rw [h]; nofun) n hn⟩, rfl⟩
  | waits h hm =>
    have hm := hm.resolve_right nofun
    have hw : wired ≠ none := by
      rw [PollHeeds, h] at hC
      exact hC hm
    refine ⟨⟨?_, fun n hn => ?_, fun n hn _ => ?_, fun _ => .inr (.inl ⟨rfl, hm⟩)⟩, rfl⟩
    · rintro (⟨-, h'⟩ | ⟨h', -⟩)
      · exact hw h'
      · cases h'
    · have hcl := hs.closable n hn
      rw [Closable, h] at hcl
      exact (hcl hm).resolve_left hw
    · exact hcount (by rw [h]; nofun) n hn hm
  | failed h hw =>
    refine ⟨settled_done rfl fun n hn => ⟨?_, hcount (by rw [h]; nofun) n hn⟩, rfl⟩
    have hcl := hs.closable n hn
    rw [Closable, h, hw] at hcl
    injection hcl with hcl
    injection hcl
  | hands h hw | pipes h hw =>
    rw [PollHeeds, h] at hC
    exact absurd hw hC
  | takes h =>
    exact ⟨settled_done rfl fun n hn => ⟨rfl, hcount (by rw [h]; nofun) n hn⟩, rfl⟩
  | ends h ht =>
    obtain ⟨n, hn⟩ := hs.marked_past (by rw [h]; rfl)
    have hcl := hs.closable n hn
    rw [Closable, h] at hcl
    exact absurd hcl (Nat.not_lt.2 ht)
  | pays h =>
    obtain ⟨n, hn⟩ := hs.marked_past (by rw [h]; rfl)
    have hcl := hs.closable n hn
    rw [Closable, h] at hcl
    exact hcl.elim

/-- A poll that does not heed it makes the call stray. -/
theorem Polled.strays (hp : c.Polled wired true c' o) (hs : c.Settled wired) (hf : c.Fed)
    (hC : ¬ c.PollHeeds wired) : c'.Strays wired o := by
  cases hp with
  | refused h hm =>
    rw [PollHeeds, h] at hC
    refine absurd (fun hm' => ?_) hC
    rw [hm'] at hm
    cases hm
  | waits h =>
    rw [PollHeeds, h] at hC
    simp only [Classical.not_imp, not_not] at hC
    exact .inr (.inl (.inl ⟨rfl, hC.2⟩))
  | failed h hw =>
    rw [PollHeeds, h, hw] at hC
    exact absurd nofun hC
  | hands h hw hm =>
    -- a `send` that awaits the wiring was in flight at the close, and its wiring has failed
    obtain ⟨n, hn⟩ := hs.marked (by
      rintro (h' | ⟨-, h'⟩ | ⟨r, h'⟩)
      · rw [h] at h'; cases h'
      · rw [hm] at h'; cases h'
      · rw [h] at h'; cases h')
    have hcl := hs.closable n hn
    rw [Closable, h, hw] at hcl
    cases hcl
  | pipes h =>
    obtain ⟨hnil, hex⟩ := hf.unpiped (.inr h)
    refine .inr (.inl (.inr ⟨rfl, ?_, hex⟩))
    rw [hnil]
    exact Nat.zero_le _
  | takes h | ends h | pays h =>
    rw [PollHeeds, h] at hC
    exact absurd trivial hC

/-- The transport's answer heeds the close when the call has an element left to stop at. -/
def AnswerHeeds (c : SendCall) : Prop := c.taken < c.elements.length

theorem answered_settled (h : c.answered (.ok ()) = some c') (hs : c.Settled wired)
    (hC : c.AnswerHeeds) : c'.Settled wired := by
  unfold answered at h
  split at h
  · next hst =>
    obtain ⟨n, hn⟩ := hs.marked_past (by rw [hst]; rfl)
    have hcl := hs.closable n hn
    rw [Closable, hst] at hcl
    simp only [hcl.1, Option.some.injEq] at h
    subst h
    refine ⟨?_, fun _ _ => hC, fun n' hn' hm => ?_, fun hf => ?_⟩
    · rintro (⟨h', -⟩ | ⟨-, hlen, -⟩)
      · cases h'
      · exact absurd hC (Nat.not_lt.2 hlen)
    · have := hs.count n' hn' hcl.1
      rw [handed, hst] at this
      exact this
    · rw [hn] at hf
      cases hf
  · cases h

theorem answered_strays (h : c.answered (.ok ()) = some c') (hs : c.Settled wired)
    (hC : ¬ c.AnswerHeeds) : c'.Strays wired none := by
  unfold answered at h
  split at h
  · next hst =>
    obtain ⟨n, hn⟩ := hs.marked_past (by rw [hst]; rfl)
    have hcl := hs.closable n hn
    rw [Closable, hst] at hcl
    simp only [hcl.1, Option.some.injEq] at h
    subst h
    exact .inr (.inl (.inr ⟨rfl, Nat.not_lt.1 hC, hcl.2.resolve_left hC⟩))
  · cases h

theorem stated_settled (h : c.stated false = some c') (hs : c.Settled wired) :
    c'.Settled wired := by
  unfold stated at h
  split at h
  · next hst =>
    cases h
    refine settled_done rfl fun n hn => ⟨rfl, fun hm => ?_⟩
    have := hs.count n hn hm
    rw [handed, hst] at this
    exact this
  · cases h

theorem stated_strays (h : c.stated true = some c') (hs : c.Settled wired) :
    c'.Strays wired none := by
  unfold stated at h
  split at h
  · next hst =>
    obtain ⟨n, hn⟩ := hs.marked_past (by rw [hst]; rfl)
    cases h
    exact .inr (.inr ⟨n, hn, nofun⟩)
  · cases h

/-- The end of a stream heeds the close unless a message is in flight and no element left. -/
def ExhaustHeeds (c : SendCall) : Prop := c.stage = .handing → c.taken < c.elements.length

/-- The wiring that resolves after the close heeds it unless a `send_via_stream` that was in flight
has still to start and is not told `Closed`. -/
def WireHeeds (c : SendCall) (result : Except WebrtcError Unit) : Prop :=
  c.atFire ≠ none → c.stage = .start → c.message = none → result = .error .closed

/-- A call that can end with `Closed` is not blocked. -/
theorem Closable.awake (h : c.Closable wired) : ¬ c.Blocked wired := by
  rintro (⟨hst, hw⟩ | ⟨hst, hlen, -⟩)
  · rw [Closable, hst, hw] at h
    cases h
  · rw [Closable, hst] at h
    exact absurd h (Nat.not_lt.2 hlen)

theorem Settled.stream {es : List PendingSend} (hs : c.Settled wired)
    (hes : c.elements.length ≤ es.length) : { c with elements := es }.Settled wired := by
  refine ⟨fun hb => hs.awake ?_, fun n hn => ?_, hs.count, hs.fresh⟩
  · exact hb.imp id fun ⟨hst, hlen, hx⟩ => ⟨hst, Nat.le_trans hes hlen, hx⟩
  · have hcl := hs.closable n hn
    unfold Closable at hcl ⊢
    cases hst : c.stage <;> simp only [hst] at hcl ⊢
    case next => exact Nat.lt_of_lt_of_le hcl hes
    case handing => exact hcl.imp_right fun h => h.imp_left fun h => Nat.lt_of_lt_of_le h hes
    all_goals exact hcl

theorem Settled.exhaust (hs : c.Settled wired) (hC : c.ExhaustHeeds) :
    { c with exhausted := true }.Settled wired := by
  refine ⟨?_, fun n hn => ?_, hs.count, hs.fresh⟩
  · rintro (hb | ⟨-, -, he⟩)
    · exact hs.awake (.inl hb)
    · cases he
  · have hcl := hs.closable n hn
    unfold Closable at hcl ⊢
    cases hst : c.stage <;> simp only [hst] at hcl ⊢
    case handing => exact ⟨hcl.1, .inl (hC hst)⟩
    all_goals exact hcl

theorem Settled.wire {result : Except WebrtcError Unit} (hs : c.Settled none)
    (hC : c.WireHeeds result) : c.Settled (some result) := by
  refine ⟨?_, fun n hn => ?_, hs.count, hs.fresh⟩
  · rintro (⟨-, hw⟩ | hb)
    · cases hw
    · exact hs.awake (.inr hb)
  · have hcl := hs.closable n hn
    unfold Closable at hcl ⊢
    cases hst : c.stage <;> simp only [hst] at hcl ⊢
    case start => exact fun hm => .inr (congrArg some (hC (by rw [hn]; nofun) hst hm))
    case wiring => cases hcl
    all_goals exact hcl

end SendCall

/-! ## The close heeded -/

namespace Sending

open SendCall

variable {s s' : Sending} {a : SendingAct}

/-- The transport has got nothing further, and call `k` is not blocked. -/
def Quiet (transport : List Handover) (k : Nat) (s : Sending) : Prop :=
  s.transport = transport ∧ ∀ c, s.calls[k]? = some c → ¬ c.Blocked s.wired

/-- Call `k` can end with `Closed`, a `send_via_stream` with `n` messages sent, by steps on which
nothing is handed to the transport and the call is never blocked. -/
def Completes (s : Sending) (k n : Nat) : Prop :=
  ∃ as t, Runs.run step s as = some t ∧ Runs.Along step (Quiet s.transport k) s as ∧
    ∃ c, t.calls[k]? = some c ∧ c.stage = .done (.error .closed) ∧ (c.message = none → c.sent = n)

/-- The close is heeded. No call hands a message to the transport after it; a call in flight at the
close returns nothing but `Closed`, a `send_via_stream` with the number of messages it had handed
over by then, and until it has returned so it can; and none is blocked on the wiring or on an
element. -/
structure Heeded (s : Sending) : Prop where
  silent : ∀ t ∈ s.transport, t.late = false
  rejected : ∀ c ∈ s.calls, ∀ n, c.atFire = some n → ∀ r, c.stage = .done r →
    r = .error .closed ∧
      (c.message = none → c.streamResult = some (.error { error := .closed, sent := n }))
  completes : ∀ k c n, s.calls[k]? = some c → c.atFire = some n → s.Completes k n
  awake : s.closed = true → ∀ c ∈ s.calls, ¬ c.Blocked s.wired

/-- A step heeds the close: it comes when every call in flight can still end with `Closed`; and
after it a wiring that resolves, every poll, every answer of the transport and every end of a stream
does, and a failed send finds the channel not open. -/
def Heeds (s : Sending) : SendingAct → Prop
  | .wire result => s.closed = true → ∀ c ∈ s.calls, c.WireHeeds result
  | .fire => s.closed = false → ∀ c ∈ s.calls, c.Returned ∨ c.Closable s.wired
  | .poll k => s.closed = true → ∀ c, s.calls[k]? = some c → c.PollHeeds s.wired
  | .answer k _ => s.closed = true → ∀ c, s.calls[k]? = some c → c.AnswerHeeds
  | .state _ isOpen => s.closed = true → isOpen = false
  | .exhaust k => s.closed = true → ∀ c, s.calls[k]? = some c → c.ExhaustHeeds
  | .send _ | .sendViaStream | .element .. | .payload .. => True

/-- How a step moves call `k`: the call goes on, gets an answer, or its stream moves. -/
inductive Moves (s : Sending) (k : Nat) (c : SendCall) :
    SendingAct → SendCall → Option Message → Prop where
  | poll {c' : SendCall} {o : Option Message} (h : c.poll s.wired s.closed = some (c', o)) :
      Moves s k c (.poll k) c' o
  | answer {c' : SendCall} {result : Except String Unit} (hr : s.closed = true → result = .ok ())
      (h : c.answered result = some c') : Moves s k c (.answer k result) c' none
  | state {c' : SendCall} {isOpen : Bool} (h : c.stated isOpen = some c') :
      Moves s k c (.state k isOpen) c' none
  | stream {a : SendingAct} {es : List PendingSend} (hes : c.elements.length ≤ es.length)
      (hu : c.Piped ∧ c.exhausted = false ∨ es.length = c.elements.length) (ha : s.Heeds a) :
      Moves s k c a { c with elements := es } none
  | exhaust (hp : c.Piped) : Moves s k c (.exhaust k) { c with exhausted := true } none

/-- What a step does. -/
inductive Effect (s : Sending) : SendingAct → Sending → Prop where
  | wired {r : Except WebrtcError Unit} (h : s.wired = none) :
      Effect s (.wire r) { s with wired := some r }
  | fired : Effect s .fire
      { s with closed := true, calls := if s.closed then s.calls else s.calls.map SendCall.mark }
  | made {a : SendingAct} (m : Option Message) (ha : s.Heeds a) :
      Effect s a { s with calls := s.calls ++ [.new m] }
  | moved {a : SendingAct} {k : Nat} {c c' : SendCall} {o : Option Message}
      (hk : s.calls[k]? = some c) (hm : s.Moves k c a c' o) :
      Effect s a
        { s with
          calls := s.calls.set k c'
          transport := s.transport ++ o.toList.map fun m => ⟨k, m, s.closed⟩ }

/-- A move of a call's stream or of its answers. -/
theorem effect_feed {k : Nat} {f : SendCall → Option SendCall} (h : s.feed k f = some s')
    (hm : ∀ c c', f c = some c' → s.Moves k c a c' none) : s.Effect a s' := by
  obtain ⟨c', hc', rfl⟩ := Option.map_eq_some_iff.1 h
  obtain ⟨c, hk, hf⟩ := Option.bind_eq_some_iff.1 hc'
  have := Effect.moved hk (hm c c' hf)
  simpa using this

/-- A step has its effect. -/
theorem step_effect (h : s.step a = some s') : s.Effect a s' := by
  cases a with
  | wire r =>
    simp only [step] at h
    split at h
    · next hw => cases h; exact .wired hw
    · cases h
  | fire => cases h; exact .fired
  | send m => cases h; exact .made (some m) trivial
  | sendViaStream => cases h; exact .made none trivial
  | poll k =>
    obtain ⟨⟨c', o⟩, hp, rfl⟩ := Option.map_eq_some_iff.1 h
    obtain ⟨c, hk, hp⟩ := Option.bind_eq_some_iff.1 hp
    exact .moved hk (.poll hp)
  | answer k r =>
    simp only [step] at h
    split at h
    · next hr => exact effect_feed h fun c c' hf => .answer hr hf
    · cases h
  | state k isOpen => exact effect_feed h fun c c' hf => .state hf
  | element k b n =>
    refine effect_feed h ?_
    intro c c' hf
    split at hf
    · next hp =>
      cases hf
      exact .stream (by simp) (.inl hp) trivial
    · cases hf
  | payload k i data =>
    refine effect_feed h ?_
    intro c c' hf
    obtain ⟨p, -, hf⟩ := Option.bind_eq_some_iff.1 hf
    split at hf
    · cases hf
      exact .stream (by simp) (.inr (by simp)) trivial
    · cases hf
  | exhaust k =>
    refine effect_feed h ?_
    intro c c' hf
    split at hf
    · next hp =>
      cases hf
      exact .exhaust hp
    · cases hf

variable {k : Nat} {c c' : SendCall} {o : Option Message}

/-- Up to its wiring a call's stream is not piped. -/
theorem not_piped (hs : c.stage = .start ∨ c.stage = .wiring) : ¬ c.Piped := by
  intro hp
  unfold Piped at hp
  obtain hs | hs := hs <;> rw [hs] at hp <;> exact hp

/-- A move changes no mark, and a call is fed past its wiring only. -/
theorem Moves.keeps (hm : s.Moves k c a c' o) : c'.atFire = c.atFire ∧ (c.Fed → c'.Fed) := by
  have hpast : ∀ {c' : SendCall}, c'.stage ≠ .start → c'.stage ≠ .wiring →
      c'.taken ≤ c'.elements.length → c'.Fed := fun h h' ht => ⟨fun hs => (hs.elim h h').elim, ht⟩
  have hhand : ∀ {r : Except WebrtcError Message}, c.hand r = (c', o) →
      c'.atFire = c.atFire ∧ (c.Fed → c'.Fed) := by
    intro r h
    obtain ⟨m, -, rfl⟩ | ⟨e, -, -, rfl⟩ := hand_cases h <;>
      exact ⟨rfl, fun hf => hpast nofun nofun hf.taken⟩
  cases hm with
  | poll h =>
    cases polled_of_poll h with
    | waits hs => exact ⟨rfl, fun hf => ⟨fun _ => hf.unpiped (.inl hs), hf.taken⟩⟩
    | hands _ _ _ hr | pays _ hr => exact hhand hr
    | refused | failed | pipes | ends => exact ⟨rfl, fun hf => hpast nofun nofun hf.taken⟩
    | takes _ ht =>
      refine ⟨rfl, fun _ => hpast ?_ ?_ ht⟩ <;> (simp only; split <;> nofun)
  | answer _ h =>
    unfold answered at h
    split at h
    · split at h
      · cases h; exact ⟨rfl, fun hf => hpast nofun nofun hf.taken⟩
      · split at h <;> cases h <;> exact ⟨rfl, fun hf => hpast nofun nofun hf.taken⟩
    · cases h
  | state h =>
    unfold stated at h
    split at h
    · cases h; exact ⟨rfl, fun hf => hpast nofun nofun hf.taken⟩
    · cases h
  | stream hes hu =>
    refine ⟨rfl, fun hf => ⟨fun hs => ?_, Nat.le_trans hf.taken hes⟩⟩
    obtain ⟨hnil, hx⟩ := hf.unpiped hs
    obtain ⟨hp, -⟩ | hlen := hu
    · exact absurd hp (not_piped hs)
    · rw [hnil] at hlen
      exact ⟨List.eq_nil_of_length_eq_zero hlen, hx⟩
  | exhaust hp => exact ⟨rfl, fun hf => ⟨fun hs => absurd hp (not_piped hs), hf.taken⟩⟩

/-- A move that heeds the close leaves the call in order. -/
theorem Moves.settled (hm : s.Moves k c a c' o) (hk : s.calls[k]? = some c) (hcl : s.closed = true)
    (hs : c.Settled s.wired) (hC : s.Heeds a) : c'.Settled s.wired ∧ o = none := by
  cases hm with
  | poll h =>
    rw [hcl] at h
    exact (polled_of_poll h).settled hs (hC hcl c hk)
  | answer hr h =>
    rw [hr hcl] at h
    exact ⟨answered_settled h hs (hC hcl c hk), rfl⟩
  | state h =>
    rw [hC hcl] at h
    exact ⟨stated_settled h hs, rfl⟩
  | stream hes => exact ⟨hs.stream hes, rfl⟩
  | exhaust => exact ⟨hs.exhaust (hC hcl c hk), rfl⟩

/-- A move that does not heed it makes the call stray. -/
theorem Moves.strays (hm : s.Moves k c a c' o) (hk : s.calls[k]? = some c) (hcl : s.closed = true)
    (hs : c.Settled s.wired) (hf : c.Fed) (hC : ¬ s.Heeds a) : c'.Strays s.wired o := by
  have hthis : ∀ {P : SendCall → Prop}, P c → ∀ c'', s.calls[k]? = some c'' → P c'' := by
    intro P hP c'' hk'
    cases hk.symm.trans hk'
    exact hP
  cases hm with
  | poll h =>
    rw [hcl] at h
    exact (polled_of_poll h).strays hs hf fun h' => hC fun _ => hthis h'
  | answer hr h =>
    rw [hr hcl] at h
    exact answered_strays h hs fun h' => hC fun _ => hthis h'
  | @state _ isOpen h =>
    cases isOpen with
    | true => exact stated_strays h hs
    | false => exact absurd (fun _ => rfl) hC
  | stream _ _ ha => exact absurd ha hC
  | exhaust hp =>
    have hhand : ¬ c.ExhaustHeeds := fun h' => hC fun _ => hthis h'
    simp only [ExhaustHeeds, Classical.not_imp] at hhand
    obtain ⟨n, hn⟩ := hs.marked_past (by rw [hhand.1]; rfl)
    refine .inr (.inr ⟨n, hn, fun hcl' => ?_⟩)
    simp only [Closable, hhand.1] at hcl'
    obtain ⟨-, ht | he⟩ := hcl'
    · exact hhand.2 ht
    · cases he

/-- The close marks, and moves no call. -/
theorem mark_frame (c : SendCall) :
    c.mark.message = c.message ∧ c.mark.stage = c.stage ∧ c.mark.elements = c.elements ∧
      c.mark.taken = c.taken ∧ c.mark.exhausted = c.exhausted := by
  unfold mark
  split <;> exact ⟨rfl, rfl, rfl, rfl, rfl⟩

/-- A connection stays closed. -/
theorem Effect.closed (he : s.Effect a s') (h : s.closed = true) : s'.closed = true := by
  cases he with
  | fired => rfl
  | wired | made | moved => exact h

/-- A step keeps what the calls have been fed. -/
theorem Effect.fed (he : s.Effect a s') (h : ∀ c ∈ s.calls, c.Fed) : ∀ c ∈ s'.calls, c.Fed := by
  cases he with
  | wired => exact h
  | fired =>
    intro c hc
    simp only at hc
    split at hc
    · exact h c hc
    · obtain ⟨c, hc', rfl⟩ := List.mem_map.1 hc
      obtain ⟨-, hst, hes, ht, hex⟩ := mark_frame c
      obtain ⟨hu, hlen⟩ := h c hc'
      exact ⟨by rw [hst, hes, hex]; exact hu, by rw [ht, hes]; exact hlen⟩
  | made m =>
    intro c hc
    rcases List.mem_append.1 hc with hc | hc
    · exact h c hc
    · cases List.mem_singleton.1 hc
      exact ⟨fun _ => ⟨rfl, rfl⟩, Nat.le_refl _⟩
  | moved hk hm =>
    intro c hc
    rcases List.mem_or_eq_of_mem_set hc with hc | rfl
    · exact h c hc
    · exact hm.keeps.2 (h _ (List.mem_of_getElem? hk))

/-! ## The calls that the close finds in flight -/

variable {n : Nat}

/-- A step on the way to the end of a call. -/
theorem Completes.cons (a : SendingAct) (s' : Sending) (hs : s.step a = some s')
    (ht : s'.transport = s.transport) (hk : s.calls[k]? = some c) (hb : ¬ c.Blocked s.wired)
    (h : s'.Completes k n) :
    s.Completes k n := by
  obtain ⟨as, t, hrun, hquiet, hend⟩ := h
  refine ⟨a :: as, t, Runs.run_cons_eq_some.2 ⟨s', hs, hrun⟩, (Runs.along_cons hs).2 ⟨?_, ?_⟩, hend⟩
  · refine ⟨rfl, fun c' hc' => ?_⟩
    cases hk.symm.trans hc'
    exact hb
  · rw [← ht]
    exact hquiet

theorem completes_of_done (hk : s.calls[k]? = some c) (hst : c.stage = .done (.error .closed))
    (hn : c.message = none → c.sent = n) : s.Completes k n := by
  refine ⟨[], s, rfl, Runs.along_nil.2 ⟨rfl, fun c' hc' => ?_⟩, c, hk, hst, hn⟩
  cases hk.symm.trans hc'
  rintro (⟨h, -⟩ | ⟨h, -⟩) <;> rw [hst] at h <;> cases h

/-- A call goes on by a poll that hands nothing over. -/
theorem Completes.poll (c' : SendCall) (hk : s.calls[k]? = some c) (hb : ¬ c.Blocked s.wired)
    (hp : c.poll s.wired s.closed = some (c', none))
    (h : { s with calls := s.calls.set k c' }.Completes k n) : s.Completes k n := by
  refine .cons (.poll k) { s with calls := s.calls.set k c' } ?_ rfl hk hb h
  simp [step, hk, hp]

theorem completes_next (hcl : s.closed = true) (hk : s.calls[k]? = some c) (hst : c.stage = .next)
    (ht : c.taken < c.elements.length) (hn : c.message = none → c.sent = n) : s.Completes k n := by
  have hlt := (List.getElem?_eq_some_iff.1 hk).1
  refine .poll { c with taken := c.taken + 1, stage := .done (.error .closed) } hk ?_ ?_ ?_
  · exact Closable.awake (by rw [Closable, hst]; exact ht)
  · simp [SendCall.poll, hst, ht, hcl]
  · exact completes_of_done (List.getElem?_set_self hlt) rfl hn

theorem completes_wiring (hw : s.wired = some (.error .closed)) (hk : s.calls[k]? = some c)
    (hst : c.stage = .wiring) (hn : c.message = none → c.sent = n) : s.Completes k n := by
  have hlt := (List.getElem?_eq_some_iff.1 hk).1
  refine .poll { c with stage := .done (.error .closed) } hk ?_ ?_ ?_
  · exact Closable.awake (by rw [Closable, hst]; exact hw)
  · simp [SendCall.poll, hst, hw]
  · exact completes_of_done (List.getElem?_set_self hlt) rfl hn

/-- A `send_via_stream` that has not started ends with the wiring's error. -/
theorem completes_start (hw : s.wired = some (.error .closed)) (hk : s.calls[k]? = some c)
    (hst : c.stage = .start) (hm : c.message = none) (hn : c.sent = n) : s.Completes k n := by
  have hlt := (List.getElem?_eq_some_iff.1 hk).1
  refine .poll { c with stage := .wiring } hk ?_ ?_ ?_
  · exact Closable.awake (by rw [Closable, hst]; exact fun _ => .inr hw)
  · simp [SendCall.poll, hst, hm]
  · exact completes_wiring hw (List.getElem?_set_self hlt) rfl fun _ => hn

/-- A stream's message in flight is sent, and the next element ends the call. -/
theorem completes_handing (hcl : s.closed = true) (hk : s.calls[k]? = some c)
    (hst : c.stage = .handing) (hm : c.message = none) (ht : c.taken < c.elements.length)
    (hn : c.sent + 1 = n) : s.Completes k n := by
  have hlt := (List.getElem?_eq_some_iff.1 hk).1
  refine .cons (.answer k (.ok ()))
    { s with calls := s.calls.set k { c with stage := .next, sent := c.sent + 1 } }
    ?_ rfl hk ?_ ?_
  · simp [step, feed, hk, answered, hst, hm]
  · exact Closable.awake (by rw [Closable, hst]; exact ⟨hm, .inl ht⟩)
  · exact completes_next hcl (List.getElem?_set_self hlt) rfl ht fun _ => hn

/-- A call in order after the close can end with `Closed`. -/
theorem completes_of_settled (hcl : s.closed = true) (hk : s.calls[k]? = some c)
    (hf : c.Fed) (hs : c.Settled s.wired) (hn : c.atFire = some n) : s.Completes k n := by
  have hlt := (List.getElem?_eq_some_iff.1 hk).1
  have hc := hs.closable n hn
  have hcount := hs.count n hn
  unfold Closable at hc
  cases hst : c.stage with
  | start =>
    simp only [hst, handed] at hc hcount
    cases hm : c.message with
    | some m =>
      refine .poll { c with stage := .done (.error .closed) } hk hs.awake ?_ ?_
      · simp [SendCall.poll, hst, hm, hcl]
      · exact completes_of_done (List.getElem?_set_self hlt) rfl hcount
    | none =>
      obtain hw | hw := hc hm
      · -- the wiring fails before the call looks at it
        refine .cons (.wire (.error .closed)) { s with wired := some (.error .closed) }
          ?_ rfl hk hs.awake ?_
        · simp [step, hw]
        · exact completes_start rfl hk hst hm (hcount hm)
      · exact completes_start hw hk hst hm (hcount hm)
  | wiring =>
    simp only [hst, handed] at hc hcount
    exact completes_wiring hc hk hst hcount
  | next =>
    simp only [hst, handed] at hc hcount
    exact completes_next hcl hk hst hc hcount
  | payload => simp only [hst] at hc
  | handing =>
    simp only [hst, handed] at hc hcount
    obtain ⟨hm, ht | he⟩ := hc
    · exact completes_handing hcl hk hst hm ht (hcount hm)
    · by_cases ht : c.taken < c.elements.length
      · exact completes_handing hcl hk hst hm ht (hcount hm)
      -- an element arrives while the message is in flight
      let p : PendingSend := { isString := false, length := 0, payload := none }
      refine .cons (.element k false 0)
        { s with calls := s.calls.set k { c with elements := c.elements ++ [p] } }
        ?_ rfl hk hs.awake ?_
      · simp [step, feed, hk, Piped, hst, hm, he, p]
      · refine completes_handing hcl (List.getElem?_set_self hlt) hst hm ?_ (hcount hm)
        rw [List.length_append, List.length_singleton]
        exact Nat.lt_succ_of_le hf.taken
  | checking reason =>
    simp only [hst, handed] at hcount
    refine .cons (.state k false)
      { s with calls := s.calls.set k { c with stage := .done (.error .closed) } }
      ?_ rfl hk hs.awake ?_
    · simp [step, feed, hk, stated, hst, sendError]
    · exact completes_of_done (List.getElem?_set_self hlt) rfl hcount
  | done r =>
    simp only [hst, handed] at hc hcount
    exact completes_of_done hk (hc ▸ hst) hcount

/-- A move after which a call can end with `Closed` comes when it could already. -/
theorem Moves.closable (hm : s.Moves k c a c' none) (hcl : s.closed = true) (hf : c.Fed)
    (hb : ¬ c.Blocked s.wired) (h : c'.Closable s.wired) : c.Closable s.wired := by
  have hhand : ∀ {r : Except WebrtcError Message}, c.hand r = (c', none) →
      (∀ e, r = .error e → e ≠ .closed) → c.Closable s.wired := by
    intro r hr hne
    obtain ⟨m, hm, -⟩ | ⟨e, he, -, rfl⟩ := hand_cases hr
    · cases hm
    · injection h with h
      exact absurd h (hne e he)
  cases hm with
  | poll hp =>
    rw [hcl] at hp
    cases polled_of_poll hp with
    | refused hs hm =>
      rw [Closable, hs]
      exact fun hm' => by rw [hm'] at hm; cases hm
    | waits hs =>
      rw [Closable, hs]
      exact fun _ => .inr h
    | failed hs hw =>
      rw [Closable, hs, hw]
      exact congrArg some h
    | hands _ _ _ hr => exact hhand hr fun e he => outgoing_error he
    | pays _ hr => exact hhand hr fun e he => PendingSend.outgoing_error he
    | pipes hs =>
      have ht : c.taken < c.elements.length := h
      rw [(hf.unpiped (.inr hs)).1] at ht
      cases ht
    | takes hs ht =>
      rw [Closable, hs]
      exact ht
    | ends => cases h
  | answer hr ha =>
    rw [hr hcl] at ha
    unfold answered at ha
    split at ha
    · next hst =>
      simp only at ha
      split at ha <;> cases ha
      · cases h
      · next hm =>
        rw [Closable, hst]
        exact ⟨hm, .inl h⟩
    · cases ha
  | state ha =>
    unfold stated at ha
    split at ha
    · next hst => rw [Closable, hst]; trivial
    · cases ha
  | stream hes hu =>
    unfold Closable at h ⊢
    cases hst : c.stage <;> simp only [hst] at h ⊢
    case next =>
      by_contra ht
      obtain ⟨-, he⟩ | hlen := hu
      · exact hb (.inr ⟨hst, Nat.not_lt.1 ht, he⟩)
      · exact ht (hlen ▸ h)
    case handing =>
      obtain ⟨-, he⟩ | hlen := hu
      · exact ⟨h.1, .inr he⟩
      · exact hlen ▸ h
    all_goals exact h
  | exhaust =>
    unfold Closable at h ⊢
    cases hst : c.stage <;> simp only [hst] at h ⊢
    case handing => exact ⟨h.1, .inl (h.2.resolve_right nofun)⟩
    all_goals exact h

/-- A call that can end with `Closed` after a step could before it. -/
theorem Effect.closable (he : s.Effect a s') (hcl : s.closed = true)
    (hf : ∀ c ∈ s.calls, c.Fed) (hk : s.calls[k]? = some c) (hb : ¬ c.Blocked s.wired)
    (ht : s'.transport = s.transport)
    (h : ∀ c', s'.calls[k]? = some c' → c'.Closable s'.wired) : c.Closable s.wired := by
  have hlt := (List.getElem?_eq_some_iff.1 hk).1
  cases he with
  | wired hw =>
    have hend := h c hk
    unfold Closable at hend ⊢
    cases hst : c.stage <;> simp only [hst] at hend ⊢
    case start => exact fun _ => .inl hw
    case wiring => exact absurd (.inl ⟨hst, hw⟩) hb
    all_goals exact hend
  | fired => exact h c (by simp only [hcl, if_true]; exact hk)
  | made m => exact h c ((List.getElem?_append_left hlt).trans hk)
  | @moved _ j cⱼ c' o hj hm =>
    by_cases hjk : j = k
    · subst hjk
      cases hj.symm.trans hk
      have ho : o = none := by
        cases o with
        | none => rfl
        | some m => simp at ht
      subst ho
      exact hm.closable hcl (hf c (List.mem_of_getElem? hk)) hb
        (h c' (List.getElem?_set_self hlt))
    · exact h c ((List.getElem?_set_ne hjk).trans hk)

/-- Only a call that is in order can end with `Closed`. -/
theorem Completes.closable (h : s.Completes k n) (hcl : s.closed = true)
    (hf : ∀ c ∈ s.calls, c.Fed) (hk : s.calls[k]? = some c) : c.Closable s.wired := by
  obtain ⟨as, t, hrun, hquiet, cₜ, hkₜ, hst, -⟩ := h
  induction as generalizing s c with
  | nil =>
    cases hrun
    cases hk.symm.trans hkₜ
    rw [Closable, hst]
  | cons a as ih =>
    obtain ⟨s', hs, hrun⟩ := Runs.run_cons_eq_some.1 hrun
    obtain ⟨⟨-, hb⟩, hquiet⟩ := (Runs.along_cons hs).1 hquiet
    have he := step_effect hs
    have ht : s'.transport = s.transport := (hquiet [] List.nil_prefix s' rfl).1
    refine he.closable hcl hf hk (hb c hk) ht fun c' hk' => ?_
    refine ih (he.closed hcl) (he.fed hf) hk' hrun ?_
    rw [ht]
    exact hquiet

/-- What carries it over a run: after the close every call is in order, before it none is marked. -/
structure SendInv (s : Sending) : Prop where
  silent : ∀ t ∈ s.transport, t.late = false
  settled : s.closed = true → ∀ c ∈ s.calls, c.Settled s.wired
  unmarked : s.closed = false → ∀ c ∈ s.calls, c.atFire = none
  fed : ∀ c ∈ s.calls, c.Fed

theorem sendInv_start : start.SendInv := ⟨nofun, nofun, nofun, nofun⟩

/-- The invariant gives the promise. -/
theorem SendInv.heeded (hi : s.SendInv) : s.Heeded where
  silent := hi.silent
  rejected c hc n hn r hr := by
    cases hcl : s.closed with
    | false =>
      rw [hi.unmarked hcl c hc] at hn
      cases hn
    | true =>
      have hs := hi.settled hcl c hc
      have hclosed := hs.closable n hn
      rw [Closable, hr] at hclosed
      subst hclosed
      refine ⟨rfl, ?_⟩
      intro hm
      have hsent := hs.count n hn hm
      rw [handed, hr] at hsent
      rw [streamResult, hr, ← hsent]
  completes k c n hk hn := by
    have hc := List.mem_of_getElem? hk
    cases hcl : s.closed with
    | false =>
      rw [hi.unmarked hcl c hc] at hn
      cases hn
    | true => exact completes_of_settled hcl hk (hi.fed c hc) (hi.settled hcl c hc) hn
  awake hcl c hc := (hi.settled hcl c hc).awake

/-- A call that can end with `Closed` when the close finds it is in order, marked or returned. -/
theorem settled_mark (hb : c.Returned ∨ c.Closable s.wired) (hf : c.atFire = none) :
    c.mark.Settled s.wired := by
  unfold mark
  split
  · next hr =>
    refine ⟨?_, fun n hn => ?_, fun n hn => ?_, fun _ => .inr (.inr hr)⟩
    · obtain ⟨r, hr⟩ := hr
      rintro (⟨h, -⟩ | ⟨h, -⟩) <;> rw [hr] at h <;> cases h
    all_goals
      rw [hf] at hn
      cases hn
  · next hr =>
    have hcl := hb.resolve_left hr
    refine ⟨hcl.awake, fun _ _ => hcl, fun n hn _ => ?_, nofun⟩
    cases hn
    rfl

/-- A step keeps the invariant when it heeds the close. -/
theorem SendInv.step (hi : s.SendInv) (hC : s.Heeds a) (h : s.step a = some s') : s'.SendInv := by
  have hfed := (step_effect h).fed hi.fed
  obtain ⟨hsilent, hsettled, hunmarked, -⟩ := hi
  cases step_effect h with
  | wired hw =>
    refine ⟨hsilent, fun hcl c hc => ?_, hunmarked, hfed⟩
    exact Settled.wire (hw ▸ hsettled hcl c hc) (hC hcl c hc)
  | fired =>
    refine ⟨hsilent, fun _ c hc => ?_, nofun, hfed⟩
    cases hcl : s.closed with
    | true =>
      simp only [hcl, if_true] at hc
      exact hsettled hcl c hc
    | false =>
      simp only [hcl, Bool.false_eq_true, if_false] at hc
      obtain ⟨c, hc', rfl⟩ := List.mem_map.1 hc
      exact settled_mark (hC hcl c hc') (hunmarked hcl c hc')
  | made m =>
    refine ⟨hsilent, fun hcl c hc => ?_, fun hcl c hc => ?_, hfed⟩ <;>
      rcases List.mem_append.1 hc with hc | hc
    · exact hsettled hcl c hc
    · cases List.mem_singleton.1 hc
      refine ⟨?_, nofun, nofun, fun _ => .inl rfl⟩
      rintro (⟨h', -⟩ | ⟨h', -⟩) <;> cases h'
    · exact hunmarked hcl c hc
    · cases List.mem_singleton.1 hc
      rfl
  | @moved _ k c c' o hk hm =>
    have hc := List.mem_of_getElem? hk
    refine ⟨?_, ?_, ?_, hfed⟩
    · intro t ht
      rcases List.mem_append.1 ht with ht | ht
      · exact hsilent t ht
      · obtain ⟨m, hmem, rfl⟩ := List.mem_map.1 ht
        by_contra hcl
        have hcl := eq_true_of_ne_false hcl
        rw [(hm.settled hk hcl (hsettled hcl c hc) hC).2] at hmem
        cases hmem
    · intro hcl c'' hc''
      rcases List.mem_or_eq_of_mem_set hc'' with hc'' | rfl
      · exact hsettled hcl c'' hc''
      · exact (hm.settled hk hcl (hsettled hcl c hc) hC).1
    · intro hcl c'' hc''
      rcases List.mem_or_eq_of_mem_set hc'' with hc'' | rfl
      · exact hunmarked hcl c'' hc''
      · exact hm.keeps.1.trans (hunmarked hcl c hc)

/-- A step that does not heed the close breaks the promise. -/
theorem SendInv.not_heeded (hi : s.SendInv) (hC : ¬ s.Heeds a) (h : s.step a = some s') :
    ¬ s'.Heeded := by
  intro hh
  have hfed : ∀ c ∈ s'.calls, c.Fed := (step_effect h).fed hi.fed
  cases step_effect h with
  | wired hw =>
    refine hC fun hcl c hc hf hst hm => ?_
    obtain ⟨n, hn⟩ := Option.ne_none_iff_exists'.1 hf
    obtain ⟨k, hk⟩ := List.getElem?_of_mem hc
    have hend := (hh.completes k c n hk hn).closable hcl hfed hk
    simp only [Closable, hst] at hend
    obtain hend | hend := hend hm
    · cases hend
    · exact Option.some.inj hend
  | made m ha => exact hC ha
  | fired =>
    refine hC fun hcl c hc => ?_
    by_cases hr : c.Returned
    · exact .inl hr
    obtain ⟨k, hk⟩ := List.getElem?_of_mem hc
    have hk' : (s.calls.map SendCall.mark)[k]? = some c.mark := by rw [List.getElem?_map, hk]; rfl
    have hmark : c.mark.atFire = some c.handed := by rw [mark, if_neg hr]
    simp only [hcl, Bool.false_eq_true, if_false] at hh hfed
    have hend := (hh.completes k c.mark c.handed hk' hmark).closable rfl hfed hk'
    obtain ⟨hm, hst, hes, ht, hex⟩ := mark_frame c
    rw [Closable, hst, hes, ht, hex, hm] at hend
    exact .inr hend
  | @moved _ k c c' o hk hm =>
    have hc := List.mem_of_getElem? hk
    have hlt := (List.getElem?_eq_some_iff.1 hk).1
    have hcl : s.closed = true := by
      by_contra hcl
      refine hC ?_
      cases hm with
      | poll | answer | state | exhaust => exact fun h' => absurd h' hcl
      | stream _ _ ha => exact ha
    have hmem : c' ∈ s.calls.set k c' := List.mem_set hlt _
    obtain ho | hb | ⟨n, hf, hne⟩ :=
      hm.strays hk hcl (hi.settled hcl c hc) (hi.fed c hc) hC
    · obtain ⟨m, rfl⟩ := Option.ne_none_iff_exists'.1 ho
      have := hh.silent ⟨k, m, s.closed⟩ (List.mem_append_right _ (by simp))
      rw [hcl] at this
      cases this
    · exact hh.awake hcl c' hmem hb
    · exact hne ((hh.completes k c' n (List.getElem?_set_self hlt) hf).closable hcl hfed
        (List.getElem?_set_self hlt))

end Sending

/-- **When the close is heeded.** Along every run of a channel's sends, the close is heeded in every
state exactly when every step heeds it. -/
theorem send_close_iff {as : List SendingAct} {s : Sending}
    (h : Runs.run Sending.step .start as = some s) :
    Runs.Along Sending.step Sending.Heeded .start as ↔
      Runs.Meets Sending.step Sending.Heeds .start as :=
  Runs.along_iff_meets (I := Sending.SendInv) (fun _ hi => hi.heeded)
    (fun _ _ _ hi hC hs => hi.step hC hs) (fun _ _ _ hi hC hs => hi.not_heeded hC hs)
    Sending.sendInv_start h

/-- A stream with a message sent and a further element queued when the connection closes: it stops
at that element with one message sent, and a later `send` is refused. -/
theorem send_close_iff_of_queued :
    Runs.Along Sending.step Sending.Heeded .start
      [.wire (.ok ()), .sendViaStream, .poll 0, .poll 0, .element 0 false 1, .payload 0 0 [7],
        .poll 0, .poll 0, .element 0 false 1, .answer 0 (.ok ()), .fire, .poll 0,
        .send (.string "hi"), .poll 1] := by
  have hfalse : ∀ {P : Prop}, false = true → P := fun h => (Bool.false_ne_true h).elim
  refine (send_close_iff rfl).2 ?_
  refine (Runs.meets_cons rfl).2 ⟨hfalse, (Runs.meets_cons rfl).2 ⟨trivial, ?_⟩⟩
  iterate 2 refine (Runs.meets_cons rfl).2 ⟨hfalse, ?_⟩
  iterate 2 refine (Runs.meets_cons rfl).2 ⟨trivial, ?_⟩
  iterate 2 refine (Runs.meets_cons rfl).2 ⟨hfalse, ?_⟩
  refine (Runs.meets_cons rfl).2 ⟨trivial, ?_⟩
  -- the call has sent one message and has another element queued
  let call : SendCall :=
    { SendCall.new none with
      stage := .next
      elements := [⟨false, 1, some [7]⟩, ⟨false, 1, none⟩]
      taken := 1
      sent := 1 }
  let sent : Sending :=
    { Sending.start with
      wired := some (.ok ())
      calls := [call]
      transport := [⟨0, .binary [7], false⟩] }
  refine (Runs.meets_cons (show _ = some sent from rfl)).2 ⟨hfalse, ?_⟩
  refine (Runs.meets_cons rfl).2 ⟨fun _ c hc => ?_, ?_⟩
  · cases List.mem_singleton.1 hc
    exact .inr (Nat.lt_succ_self 1)
  refine (Runs.meets_cons rfl).2 ⟨fun _ c hc => ?_, ?_⟩
  · cases hc
    trivial
  refine (Runs.meets_cons rfl).2 ⟨trivial, ?_⟩
  refine (Runs.meets_cons rfl).2 ⟨?_, trivial⟩
  intro _ c hc
  cases hc
  exact nofun

/-- A `send` that has looked at the signal and awaits the wiring when the connection closes: it is
blocked, then hands its message to the transport, and returns `Ok`. -/
theorem close_not_heeded :
    ∃ s s', Runs.run Sending.step .start [.send (.binary [7]), .poll 0, .fire] = some s ∧
      (∃ c ∈ s.calls, c.Blocked s.wired) ∧ ¬ s.Heeded ∧
      Runs.run Sending.step s [.wire (.ok ()), .poll 0, .answer 0 (.ok ())] = some s' ∧
      s'.transport = [{ call := 0, message := .binary [7], late := true }] ∧
      s'.calls.map SendCall.stage = [.done (.ok ())] ∧ ¬ s'.Heeded := by
  refine ⟨_, _, rfl, ?_, ?_, rfl, rfl, rfl, ?_⟩
  · exact ⟨_, List.mem_singleton_self _, .inl ⟨rfl, rfl⟩⟩
  · intro hh
    exact hh.awake rfl _ (List.mem_singleton_self _) (.inl ⟨rfl, rfl⟩)
  · intro hh
    have := hh.silent _ (List.mem_singleton_self _)
    cases this

end WebrtcDatachannels.Host
