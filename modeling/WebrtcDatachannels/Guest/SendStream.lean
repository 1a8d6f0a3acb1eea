import WebrtcDatachannels.Contract.StreamMessages
import WebrtcDatachannels.Guest.Conn

/-!
# The messages of a `send_via_stream`

One `send_via_stream` of a connection and the streams the guest passed to it. The call is the task
of `Guest/Conn`, with every other task of the connection at work beside it; what its reads return is
what the guest's streams hold. `drain_stream` takes what it reads for the payload whether or not
that is what the element declares, and the text of a payload is its lossy decoding, so the messages
are the declared ones along exactly the runs in which no other element reaches the core
(`guest_sends_declared_iff`).
-/

namespace WebrtcDatachannels.Guest

open Contract (Kept Carries Matches Faithful)

/-! ## The call and its streams -/

/-- A connection and the guest's side of one `send_via_stream`: the elements it has read and those
it has not, the bytes it has not read of the last one's payload, and for reference the messages that
the core took from it and the element whose send failed. -/
structure Streaming where
  conn : Conn
  taken : List StreamMessage
  unread : List StreamMessage
  payload : Bytes
  handed : List Message
  failed : Option Nat

namespace Streaming

/-- A call that has not read anything yet. -/
def start (conn : Conn) (elements : List StreamMessage) : Streaming :=
  { conn, taken := [], unread := elements, payload := [], handed := [], failed := none }

/-- The guest's streams can make a read return this: the next element or the next bytes, and the end
of a stream with its last ones. -/
def offers (s : Streaming) : Io → Prop
  | .element status none => status.ended = true → s.unread = []
  | .element status (some (kind, length)) =>
    (s.unread.head?.map fun e => (e.kind, e.length)) = some (kind, length) ∧
      (status.ended = true → s.unread.tail = [])
  | .payload r => r.buf <+: s.payload ∧ (r.status.ended = true → r.buf = s.payload)
  | .accepted | .drained | .refused => True

instance (s : Streaming) : (io : Io) → Decidable (s.offers io)
  | .element _ none => inferInstanceAs (Decidable (_ → _))
  | .element _ (some (_, _)) => inferInstanceAs (Decidable (_ ∧ _))
  | .payload _ => inferInstanceAs (Decidable (_ ∧ _))
  | .accepted | .drained | .refused => isTrue trivial

/-- The guest's streams after a read. -/
def read (s : Streaming) : Io → Streaming
  | .element _ (some _) =>
    { s with
      taken := s.taken ++ s.unread.head?.toList
      unread := s.unread.tail
      payload := (s.unread.head?.map (·.data)).getD [] }
  | .payload r => { s with payload := s.payload.drop r.buf.length }
  | .element _ none | .accepted | .drained | .refused => s

/-- The send of the element that the call has taken fails: its channel is closed, or the core
refuses the message. -/
def sendFails (s : Shared) (answer : Except String Unit) : Task → Bool
  | .sendViaStream h _ (.opening ..) =>
    match channelState s h.id, answer with
    | .closed, _ | .open, .error _ => true
    | _, _ => false
  | _ => false

/-- The messages handed to the core between two states of the connection, when it takes them. -/
def accepted (c c' : Conn) : Except String Unit → List Message
  | .ok () => (c'.shared.peer.sends.drop c.shared.peer.sends.length).map (·.message)
  | .error _ => []

/-- What the step `a` of the connection to `c` is to the call `k`. -/
def after (k : TaskId) (s : Streaming) (a : Act) (c : Conn) : Streaming :=
  match a with
  | .io k' io => if k' = k then { s.read io with conn := c } else { s with conn := c }
  | .poll k' _ answer =>
    if k' = k then
      { s with
        conn := c
        handed := s.handed ++ accepted s.conn c answer
        failed :=
          if (s.conn.tasks[k]?).any (sendFails s.conn.shared answer) then some (s.taken.length - 1)
          else s.failed }
    else { s with conn := c }
  | _ => { s with conn := c }

/-- The guest's streams allow the step. -/
def allows (k : TaskId) (s : Streaming) : Act → Bool
  | .io k' io => k' ≠ k || decide (s.offers io)
  | _ => true

/-- One step of the connection, in which the reads of the call `k` return what the guest's streams
hold. -/
def step (limit : Nat) (k : TaskId) (s : Streaming) (a : Act) : Option Streaming :=
  if s.allows k a then (s.conn.step limit a).map (s.after k a) else none

/-- What the call `k` has returned. -/
def result (k : TaskId) (s : Streaming) : Option (Except SendViaStreamError Unit) :=
  match s.conn.tasks[k]? with
  | some (.sendViaStream _ _ (.returned r)) => some r
  | _ => none

/-- The call has sent exactly the declared messages so far. -/
def Sound (k : TaskId) (elements : List StreamMessage) (s : Streaming) : Prop :=
  Faithful elements s.handed s.failed (s.result k)

/-- A step does not hand an element to the core, unless that is what it declares. -/
def HandsKept (k : TaskId) (s : Streaming) : Act → Prop
  | .poll k' _ (.ok ()) =>
    k' = k → ∀ h sent status message seen,
      s.conn.tasks[k]? = some (.sendViaStream h sent (.opening status message seen)) →
      channelState s.conn.shared h.id = .open → ∀ e, s.taken.getLast? = some e → Kept e
  | _ => True

/-! ## What the call does -/

section
variable {limit : Nat} {k : TaskId} {s s' : Streaming} {a : Act}

/-- A step that neither polls the call nor completes a read of it is one of the connection only. -/
theorem after_other {c : Conn} (hpoll : ∀ now answer, a ≠ .poll k now answer)
    (hio : ∀ io, a ≠ .io k io) : s.after k a c = { s with conn := c } := by
  cases a with
  | poll k' now answer =>
    have hne : k' ≠ k := fun he => hpoll now answer (he ▸ rfl)
    simp only [after, if_neg hne]
  | io k' io =>
    have hne : k' ≠ k := fun he => hio io (he ▸ rfl)
    simp only [after, if_neg hne]
  | core | turn | finish | createDataChannel | incomingDataChannels | close | send
  | sendViaStream | receive | receiveViaStream | waitConnected => rfl

theorem step_eq_some (h : step limit k s a = some s') :
    s.allows k a = true ∧ ∃ c, s.conn.step limit a = some c ∧ s.after k a c = s' := by
  unfold step at h
  split at h
  · next hallows => exact ⟨hallows, Option.map_eq_some_iff.1 h⟩
  · cases h

/-- A step polls the call, completes a read of it, or leaves it and its streams as they are. -/
theorem step_cases (h : step limit k s a = some s') {t : Task} (hk : s.conn.tasks[k]? = some t) :
    (∃ c, (∀ now answer, a ≠ .poll k now answer) ∧ c.tasks[k]? = some t ∧
      s' = { s with conn := c }) ∨
    (∃ io t' c, a = .io k io ∧ s.offers io ∧ t.advance io = some t' ∧ c.tasks[k]? = some t' ∧
      s' = { s.read io with conn := c }) ∨
    (∃ now answer p c, a = .poll k now answer ∧ t.poll s.conn.shared k now answer = some p ∧
      c.tasks[k]? = some p.task ∧ c.shared = p.shared ∧ s' = s.after k a c) := by
  obtain ⟨hallows, c, hc, rfl⟩ := step_eq_some h
  have hlt : k < s.conn.tasks.length := (List.getElem?_eq_some_iff.1 hk).1
  by_cases hpoll : ∃ now answer, a = .poll k now answer
  · obtain ⟨now, answer, rfl⟩ := hpoll
    simp only [Conn.step, hk, Option.bind_some, Option.map_eq_some_iff] at hc
    obtain ⟨p, hp, rfl⟩ := hc
    exact .inr (.inr ⟨now, answer, p, _, rfl, hp, List.getElem?_set_self hlt, rfl, rfl⟩)
  by_cases hio : ∃ io, a = .io k io
  · obtain ⟨io, rfl⟩ := hio
    simp only [Conn.step, hk, Option.bind_some, Option.map_eq_some_iff] at hc
    obtain ⟨t', ht, rfl⟩ := hc
    have hoffers : s.offers io := by simpa [allows] using hallows
    exact .inr (.inl ⟨io, t', { s.conn with
      tasks := s.conn.tasks.set k t', handles := s.conn.handles ++ t.adopted io },
      rfl, hoffers, ht, List.getElem?_set_self hlt, if_pos rfl⟩)
  · have hpoll' : ∀ now answer, a ≠ .poll k now answer := fun now answer h =>
      hpoll ⟨now, answer, h⟩
    have hio' : ∀ io, a ≠ .io k io := fun io h => hio ⟨io, h⟩
    exact .inl ⟨c, hpoll', Conn.step_keeps hc hk hpoll' hio', after_other hpoll' hio'⟩

end

/-- What a pass of `when_open` for an element does: it hands the message over, fails, or waits. -/
theorem poll_opening {s : Shared} {k : TaskId} {now : Instant} {answer : Except String Unit}
    {h : DataChannel} {sent : Nat} {status : StreamResult} {message : Message}
    {seen : Option Nat} {p : Polled}
    (hp : (Task.sendViaStream h sent (.opening status message seen)).poll s k now answer = some p) :
    (channelState s h.id = .open ∧ answer = .ok () ∧
      p.task = .sendViaStream h (sent + 1)
        (if status.ended then .returned (.ok ()) else .reading) ∧
      p.shared.peer.sends = s.peer.sends ++ [⟨h.id, message⟩]) ∨
    (sendFails s answer (.sendViaStream h sent (.opening status message seen)) = true ∧
      (∃ error, p.task = .sendViaStream h sent (.returned (.error ⟨error, sent⟩))) ∧
      (answer = .ok () → p.shared.peer.sends = s.peer.sends)) ∨
    (channelState s h.id = .opening ∧
      (∃ seen', p.task = .sendViaStream h sent (.opening status message seen')) ∧
      p.shared.peer.sends = s.peer.sends) := by
  simp only [Task.poll] at hp
  split at hp
  · cases hp
    cases hc : channelState s h.id with
    | «open» =>
      cases answer with
      | ok u =>
        refine .inl ⟨rfl, rfl, ?_, ?_⟩ <;>
          simp only [whenOpen, hc, handOver, SansIoPeer.send, Except.mapError, Verdict.succeeded,
            SendStream.after, Shared.park, if_true]
      | error e =>
        refine .inr (.inl ⟨by simp only [sendFails, hc], ⟨.other e, ?_⟩, fun ha => by cases ha⟩)
        simp [whenOpen, hc, handOver, SansIoPeer.send, Except.mapError, Verdict.succeeded,
          SendStream.after]
    | closed =>
      refine .inr (.inl ⟨by simp only [sendFails, hc], ⟨.closed, ?_⟩, fun _ => ?_⟩)
      · simp [whenOpen, hc, Verdict.succeeded, SendStream.after]
      · simp only [whenOpen, hc, Shared.park]
    | opening =>
      refine .inr (.inr ⟨rfl, ⟨some s.watch.version, ?_⟩, ?_⟩)
      · simp [whenOpen, hc, Verdict.succeeded, SendStream.after]
      · simp only [whenOpen, hc, Shared.park]
  · cases hp

/-! ## Draining a payload -/

/-- A read of a payload that is not there yet. -/
theorem drainStream_read {length : Nat} {out : Bytes} (h : drainFull length out = false)
    (r : PayloadRead) :
    drainStream length out [r] =
      if r.status.ended || drainFull length (out ++ r.buf) then some (out ++ r.buf) else none := by
  simp only [drainStream, h, Bool.false_eq_true, if_false]
  cases r.status.ended <;> simp

/-- What is drained when the declared length is there is the payload, when that is what the element
declares. -/
theorem drained_eq {e : StreamMessage} {out rest : Bytes} (hk : Kept e)
    (hfull : drainFull e.length out = true) (hdata : out ++ rest = e.data) : out = e.data := by
  have hlen : e.data.length ≤ out.length := by
    simp only [drainFull, Bool.and_eq_true, decide_eq_true_eq] at hfull
    exact hk.total ▸ hfull.2
  exact List.IsPrefix.eq_of_length_le ⟨rest, hdata⟩ hlen

/-- The message of an element that is what it declares carries the element. -/
theorem carries_elementMessage {e : StreamMessage} (hk : Kept e) :
    Carries (elementMessage e.kind e.data) e := by
  cases hkind : e.kind with
  | binary => exact ⟨hkind, rfl⟩
  | string =>
    obtain ⟨text, ht⟩ := Option.isSome_iff_exists.1 (hk.text hkind)
    refine ⟨hkind, ?_⟩
    rw [fromUtf8Lossy_of_fromUtf8 ht]
    exact fromUtf8_eq_some.1 ht

/-! ## The invariant -/

/-- Where a call at `stage` that has sent `sent` elements stands among them. -/
def Stands (s : Streaming) (sent : Nat) : SendStream → Prop
  | .reading => s.failed = none ∧ s.taken.length = sent
  | .draining status kind length out =>
    s.failed = none ∧ (status.ended = true → s.unread = []) ∧
      ∃ pre e, s.taken = pre ++ [e] ∧ pre.length = sent ∧ e.kind = kind ∧ e.length = length ∧
        out ++ s.payload = e.data ∧ drainFull length out = false
  | .opening status message _ =>
    s.failed = none ∧ (status.ended = true → s.unread = []) ∧
      ∃ pre e, s.taken = pre ++ [e] ∧ pre.length = sent ∧ (Kept e → Carries message e)
  | .returned (.ok ()) => s.failed = none ∧ s.unread = [] ∧ s.taken.length = sent
  | .returned (.error error) =>
    s.failed = some sent ∧ error.sent = sent ∧ ∃ pre e, s.taken = pre ++ [e] ∧ pre.length = sent

/-- What holds as long as only elements that are what they declare reach the core. -/
structure Inv (k : TaskId) (elements : List StreamMessage) (s : Streaming) : Prop where
  whole : s.taken ++ s.unread = elements
  sends : Matches elements s.handed
  call : ∃ h stage, s.conn.tasks[k]? = some (.sendViaStream h s.handed.length stage) ∧
    s.Stands s.handed.length stage

section
variable {limit : Nat} {k : TaskId} {elements : List StreamMessage} {s s' : Streaming} {a : Act}

theorem inv_start {conn : Conn} {h : DataChannel}
    (hk : conn.tasks[k]? = some (.sendViaStream h 0 .reading)) :
    (start conn elements).Inv k elements :=
  ⟨rfl, Contract.matches_nil, h, .reading, hk, rfl, rfl⟩

/-- The element that the call has taken last. -/
theorem Inv.element (hi : s.Inv k elements) {pre : List StreamMessage} {e : StreamMessage}
    (ht : s.taken = pre ++ [e]) : elements[pre.length]? = some e := by
  rw [← hi.whole, ht]
  simp

/-- The invariant is more than the claim of a state. -/
theorem Inv.sound (hi : s.Inv k elements) : s.Sound k elements := by
  obtain ⟨h, stage, hk, hs⟩ := hi.call
  unfold Sound
  cases stage with
  | reading | draining | opening =>
    have hfailed : s.failed = none := hs.1
    have hresult : s.result k = none := by simp only [result, hk]
    rw [hfailed, hresult]
    exact Contract.faithful_pending hi.sends
  | returned r =>
    have hresult : s.result k = some r := by simp only [result, hk]
    rw [hresult]
    cases r with
    | ok u =>
      obtain ⟨hfailed, hunread, htaken⟩ := hs
      rw [hfailed]
      refine Contract.faithful_ok hi.sends ?_
      rw [← hi.whole, hunread, List.append_nil, htaken]
    | error error =>
      obtain ⟨hfailed, hsent, pre, e, ht, hpre⟩ := hs
      obtain ⟨error, sent⟩ := error
      obtain rfl : sent = s.handed.length := hsent
      exact Contract.faithful_error error hi.sends (hpre ▸ hi.element ht) (.inl hfailed)

/-- A read of one of the call's streams keeps the invariant. -/
theorem Inv.io {h : DataChannel} {stage : SendStream} {io : Io} {t : Task} {c : Conn}
    (hi : s.Inv k elements) (hs : s.Stands s.handed.length stage) (hio : s.offers io)
    (ht : (Task.sendViaStream h s.handed.length stage).advance io = some t)
    (hk : c.tasks[k]? = some t) : Inv k elements { s.read io with conn := c } := by
  cases stage with
  | reading =>
    obtain ⟨hfailed, htaken⟩ := hs
    cases io with
    | element status element =>
      cases element with
      | none =>
        cases ht
        refine ⟨hi.whole, hi.sends, h, _, hk, ?_⟩
        cases hended : status.ended with
        | true => exact ⟨hfailed, hio hended, htaken⟩
        | false => exact ⟨hfailed, htaken⟩
      | some element =>
        obtain ⟨kind, length⟩ := element
        cases ht
        obtain ⟨hhead, hended⟩ := hio
        cases hunread : s.unread with
        | nil => rw [hunread] at hhead; cases hhead
        | cons e rest =>
          rw [hunread] at hhead hended
          cases hhead
          refine ⟨?_, hi.sends, h, _, hk, hfailed, ?_, s.taken, e, ?_, htaken, rfl, rfl, ?_, ?_⟩
          · simp only [read, hunread, List.head?_cons, Option.toList_some, List.tail_cons,
              List.append_assoc, List.singleton_append]
            rw [← hunread]
            exact hi.whole
          · simpa only [read, hunread] using hended
          · simp only [read, hunread, List.head?_cons, Option.toList_some]
          · simp only [read, hunread, List.head?_cons, Option.map_some, Option.getD_some,
              List.nil_append]
          · simp [drainFull]
    | payload | accepted | drained | refused => cases ht
  | draining status kind length out =>
    obtain ⟨hfailed, hended, pre, e, htaken, hpre, rfl, rfl, hdata, hfull⟩ := hs
    cases io with
    | payload r =>
      obtain ⟨hbuf, hlast⟩ := hio
      have hrest : out ++ r.buf ++ s.payload.drop r.buf.length = e.data := by
        rw [List.append_assoc, List.prefix_iff_eq_append.1 hbuf, hdata]
      simp only [Task.advance, drainStream_read hfull] at ht
      split at ht
      · cases hdone : r.status.ended || drainFull e.length (out ++ r.buf) with
        | true =>
          simp only [hdone, if_true] at ht
          cases ht
          refine ⟨hi.whole, hi.sends, h, _, hk, hfailed, hended, pre, e, htaken, hpre,
            fun hkept => ?_⟩
          have hbytes : out ++ r.buf = e.data := by
            rcases Bool.or_eq_true_iff.1 hdone with he | hf
            · rw [hlast he, hdata]
            · exact drained_eq hkept hf hrest
          rw [hbytes]
          exact carries_elementMessage hkept
        | false =>
          simp only [hdone, Bool.false_eq_true, if_false] at ht
          cases ht
          exact ⟨hi.whole, hi.sends, h, _, hk, hfailed, hended, pre, e, htaken, hpre, rfl, rfl,
            hrest, (Bool.or_eq_false_iff.1 hdone).2⟩
      · cases ht
    | element | accepted | drained | refused => cases ht
  | opening | returned => cases ht

/-- What the core took in a poll that handed `message` over. -/
theorem accepted_handed {c c' : Conn} {m : CoreSend}
    (h : c'.shared.peer.sends = c.shared.peer.sends ++ [m]) :
    accepted c c' (.ok ()) = [m.message] := by
  simp [accepted, h]

/-- What the core took in a poll that handed nothing over with success. -/
theorem accepted_nothing {c c' : Conn} {answer : Except String Unit}
    (h : answer = .ok () → c'.shared.peer.sends = c.shared.peer.sends) :
    accepted c c' answer = [] := by
  cases answer with
  | ok u => simp [accepted, h rfl]
  | error e => rfl

/-- Only a call in `when_open` is polled. -/
theorem poll_stage {sh : Shared} {now : Instant} {answer : Except String Unit} {h : DataChannel}
    {sent : Nat} {stage : SendStream} {p : Polled}
    (hp : (Task.sendViaStream h sent stage).poll sh k now answer = some p) :
    ∃ status message seen, stage = .opening status message seen := by
  cases stage with
  | opening status message seen => exact ⟨status, message, seen, rfl⟩
  | reading | draining | returned => cases hp

/-- A poll of the call that hands over no element but what it declares keeps the invariant. -/
theorem Inv.poll {h : DataChannel} {stage : SendStream} {now : Instant}
    {answer : Except String Unit} {p : Polled} {c : Conn} (hi : s.Inv k elements)
    (ht : s.conn.tasks[k]? = some (.sendViaStream h s.handed.length stage))
    (hs : s.Stands s.handed.length stage)
    (hp : (Task.sendViaStream h s.handed.length stage).poll s.conn.shared k now answer = some p)
    (hk : c.tasks[k]? = some p.task) (hc : c.shared = p.shared)
    (hgood : s.HandsKept k (.poll k now answer)) :
    (s.after k (.poll k now answer) c).Inv k elements := by
  obtain ⟨status, message, seen, rfl⟩ := poll_stage hp
  obtain ⟨hfailed, hended, pre, e, htaken, hpre, hcarries⟩ := hs
  simp only [after, if_pos, ht, Option.any_some]
  rcases poll_opening hp with ⟨hopen, rfl, htask, hsends⟩ | ⟨hfails, ⟨error, htask⟩, hsends⟩ |
      ⟨hopening, ⟨seen', htask⟩, hsends⟩
  · have hkept : Kept e :=
      hgood rfl h _ status message seen ht hopen e (by rw [htaken, List.getLast?_concat])
    have helem : elements[s.handed.length]? = some e := hpre ▸ hi.element htaken
    have hlen : (s.handed ++ [message]).length = s.handed.length + 1 := by simp
    have hnot : sendFails s.conn.shared (.ok ())
        (.sendViaStream h s.handed.length (.opening status message seen)) = false := by
      simp only [sendFails, hopen]
    rw [accepted_handed (by rw [hc, hsends])]
    refine ⟨hi.whole, Contract.matches_append hi.sends helem (hcarries hkept) hkept, h,
      if status.ended then .returned (.ok ()) else .reading, ?_, ?_⟩
    · rw [hlen]
      exact hk.trans (congrArg some htask)
    · have htaken' : s.taken.length = (s.handed ++ [message]).length := by
        rw [htaken, List.length_append, hpre, hlen, List.length_singleton]
      simp only [hnot, Bool.false_eq_true, if_false]
      cases he : status.ended with
      | true => exact ⟨hfailed, hended he, htaken'⟩
      | false => exact ⟨hfailed, htaken'⟩
  · rw [accepted_nothing fun ha => by rw [hc, hsends ha], List.append_nil, if_pos hfails]
    refine ⟨hi.whole, hi.sends, h, _, hk.trans (congrArg some htask), ?_, rfl, pre, e, htaken, hpre⟩
    rw [htaken, List.length_append, hpre]
    rfl
  · have hnot : sendFails s.conn.shared answer
        (.sendViaStream h s.handed.length (.opening status message seen)) = false := by
      simp only [sendFails, hopening]
    rw [accepted_nothing fun _ => by rw [hc, hsends], List.append_nil, hnot]
    exact ⟨hi.whole, hi.sends, h, _, hk.trans (congrArg some htask), hfailed, hended, pre, e,
      htaken, hpre, hcarries⟩

/-- A step that hands over no element but what it declares keeps the invariant. -/
theorem Inv.step (hi : s.Inv k elements) (hgood : s.HandsKept k a)
    (h : Streaming.step limit k s a = some s') : s'.Inv k elements := by
  obtain ⟨hd, stage, hk, hs⟩ := hi.call
  rcases step_cases h hk with ⟨c, -, hc, rfl⟩ | ⟨io, t, c, rfl, hio, ht, hc, rfl⟩ |
      ⟨now, answer, p, c, rfl, hp, hc, hsh, rfl⟩
  · exact ⟨hi.whole, hi.sends, hd, stage, hc, hs⟩
  · exact hi.io hs hio ht hc
  · exact hi.poll hk hs hp hc hsh hgood

/-- A step that hands over another element ends in a state against the claim. -/
theorem Inv.not_sound (hi : s.Inv k elements) (hbad : ¬ s.HandsKept k a)
    (h : Streaming.step limit k s a = some s') : ¬ s'.Sound k elements := by
  intro hsound
  apply hbad
  cases a with
  | poll k' now answer =>
    cases answer with
    | ok u =>
      rintro rfl hd sent status message seen hk hopen e he
      obtain ⟨hd', stage, hk', hs⟩ := hi.call
      obtain ⟨rfl, rfl, rfl⟩ := Task.sendViaStream.inj (Option.some.inj (hk.symm.trans hk'))
      obtain ⟨-, -, pre, e', htaken, hpre, -⟩ := hs
      rw [htaken, List.getLast?_concat] at he
      cases he
      rcases step_cases h hk with ⟨c, ha, -⟩ | ⟨io, t, c, ha, -⟩ |
          ⟨now', answer', p, c, ha, hp, hc, hsh, rfl⟩
      · exact absurd rfl (ha now (.ok u))
      · cases ha
      · cases ha
        rcases poll_opening hp with ⟨-, -, -, hsends⟩ | ⟨hfails, -, -⟩ | ⟨hopening, -, -⟩
        · have hsends := hsound.sends
          simp only [after, if_pos] at hsends
          rw [accepted_handed (by rw [hsh]; assumption)] at hsends
          exact hsends.last (hpre ▸ hi.element htaken)
        · simp only [sendFails, hopen, Bool.false_eq_true] at hfails
        · rw [hopen] at hopening; cases hopening
    | error => trivial
  | core | turn | finish | createDataChannel | incomingDataChannels | close | send
  | sendViaStream | receive | receiveViaStream | waitConnected | io => trivial

/-- In every run of a connection beside a `send_via_stream`, the call sends exactly the declared
messages in every state reached exactly when no element is handed to the core, on an open channel
that takes it, that is not what it declares. -/
theorem guest_sends_declared_iff {conn : Conn} {h : DataChannel} {as : List Act}
    (hk : conn.tasks[k]? = some (.sendViaStream h 0 .reading))
    (hrun : Runs.run (Streaming.step limit k) (start conn elements) as = some s) :
    Runs.Along (Streaming.step limit k) (Sound k elements) (start conn elements) as ↔
      Runs.Meets (Streaming.step limit k) (HandsKept k) (start conn elements) as :=
  Runs.along_iff_meets (fun _ hi => hi.sound) (fun _ _ _ hi hgood h => hi.step hgood h)
    (fun _ _ _ hi hbad h => hi.not_sound hbad h) (inv_start hk) hrun

end

/-- An element that declares three bytes and has one is sent. -/
theorem short_payload_sent :
    ∃ conn s, Runs.run (Conn.step 8) .bound
        [.createDataChannel "a" (.ok 0), .core [.onDataChannel (.onOpen 0)] [] [], .turn 0,
          .sendViaStream ⟨.pump, 0, "a"⟩] = some conn ∧
      Runs.run (Streaming.step 8 0) (start conn [⟨.binary, 3, [1]⟩])
        [.io 0 (.element .complete (some (.binary, 3))), .io 0 (.payload ⟨.dropped, [1]⟩),
          .poll 0 0 (.ok ())] = some s ∧
      s.handed = [.binary [1]] ∧ ¬ s.Sound 0 [⟨.binary, 3, [1]⟩] := by
  refine ⟨_, _, rfl, rfl, rfl, fun hsound => ?_⟩
  obtain ⟨x, hx, -, hkept⟩ := hsound.sends 0 (.binary [1]) rfl
  cases hx
  exact absurd hkept (by decide)

/-- A text of two bytes is read one byte at a time and sent. -/
theorem guest_sends_declared_of_text :
    ∃ conn s, Runs.run (Conn.step 8) .bound
        [.createDataChannel "a" (.ok 0), .core [.onDataChannel (.onOpen 0)] [] [], .turn 0,
          .sendViaStream ⟨.pump, 0, "a"⟩] = some conn ∧
      Runs.run (Streaming.step 8 0) (start conn [⟨.string, 2, [104, 105]⟩])
        [.io 0 (.element .dropped (some (.string, 2))), .io 0 (.payload ⟨.complete, [104]⟩),
          .io 0 (.payload ⟨.complete, [105]⟩), .poll 0 0 (.ok ())] = some s ∧
      s.result 0 = some (.ok ()) ∧ s.Sound 0 [⟨.string, 2, [104, 105]⟩] := by
  have hrun : ∃ conn s, Runs.run (Conn.step 8) .bound
        [.createDataChannel "a" (.ok 0), .core [.onDataChannel (.onOpen 0)] [] [], .turn 0,
          .sendViaStream ⟨.pump, 0, "a"⟩] = some conn ∧
      Runs.run (Streaming.step 8 0) (start conn [⟨.string, 2, [104, 105]⟩])
        [.io 0 (.element .dropped (some (.string, 2))), .io 0 (.payload ⟨.complete, [104]⟩),
          .io 0 (.payload ⟨.complete, [105]⟩), .poll 0 0 (.ok ())] = some s ∧
      s.result 0 = some (.ok ()) ∧
      conn.tasks[0]? = some (.sendViaStream ⟨.pump, 0, "a"⟩ 0 .reading) ∧
      Runs.Meets (Streaming.step 8 0) (HandsKept 0) (start conn [⟨.string, 2, [104, 105]⟩])
        [.io 0 (.element .dropped (some (.string, 2))), .io 0 (.payload ⟨.complete, [104]⟩),
          .io 0 (.payload ⟨.complete, [105]⟩), .poll 0 0 (.ok ())] := by
    have hkept : Kept ⟨.string, 2, [104, 105]⟩ := ⟨rfl, fun _ => by decide⟩
    refine ⟨_, _, rfl, rfl, rfl, rfl, trivial, ?_⟩
    rintro _ ⟨⟩
    refine ⟨trivial, ?_⟩
    rintro _ ⟨⟩
    refine ⟨trivial, ?_⟩
    rintro _ ⟨⟩
    refine ⟨fun _ _ _ _ _ _ _ _ e he => ?_, fun _ _ => trivial⟩
    cases he
    exact hkept
  obtain ⟨conn, s, hconn, hs, hok, hk, hmeets⟩ := hrun
  exact ⟨conn, s, hconn, hs, hok,
    (guest_sends_declared_iff hk hs).2 hmeets _ (List.prefix_refl _) _ hs⟩

end Streaming

end WebrtcDatachannels.Guest
