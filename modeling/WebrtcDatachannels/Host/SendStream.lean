import WebrtcDatachannels.Contract.StreamMessages
import WebrtcDatachannels.Host.Send

/-!
# The messages of a host's `send_via_stream`

One `send_via_stream` on a connection that stays open, with the two kinds of consumers that the
runtime polls for it: `OutboundStreamMessages`, which takes the elements of the guest's stream in
batches and queues them for the driver, and a `ByteCollector` for each element, which drains its
payload and hands it to the driver, whatever the other collectors have done by then. The driver is
the `SendCall` of `Host/Send`. It waits for the payloads in the order in which the elements were
queued, so the messages handed to the transport are the elements in stream order, and the first
element that is not what it declares, or whose send the transport fails, ends the call
(`host_sends_declared`).
-/

namespace WebrtcDatachannels.Host

open Contract (Kept Carries Matches Faithful)

/-! ## The consumers -/

/-- What a poll of a consumer returns: a `StreamResult`, or `Pending`. -/
inductive Consumed where
  | completed
  | cancelled
  | pending
deriving DecidableEq, Repr

/-- The bytes of a payload that are read, and whether `done_tx` is still there to hand them to.
Source: `ByteCollector`. -/
structure ByteCollector where
  buf : Bytes
  doneTx : Bool
deriving DecidableEq, Repr

namespace ByteCollector

/-- A collector that has read nothing yet. -/
def new : ByteCollector := { buf := [], doneTx := true }

/-- With the bytes that are sent on `done_tx`. Source: `ByteCollector::finish`, which is also what
`Drop` does. -/
def finish (c : ByteCollector) : ByteCollector × Option Bytes :=
  if c.doneTx then ({ buf := [], doneTx := false }, some c.buf) else (c, none)

/-- A poll with the bytes `chunk` available. Source: `ByteCollector::poll_consume`. -/
def pollConsume (c : ByteCollector) (chunk : Bytes) (finish : Bool) :
    Consumed × ByteCollector × Option Bytes :=
  if chunk.length > 0 then (.completed, { c with buf := c.buf ++ chunk }, none)
  else if finish then (.cancelled, c.finish)
  else (.pending, c, none)

end ByteCollector

/-- What `OutboundStreamMessages` queues for an element, whose payload is not drained yet. -/
def PendingSend.ofElement (e : StreamMessage) : PendingSend :=
  { isString := decide (e.kind = .string), length := e.length, payload := none }

/-- The driver's end of `done_tx` after a collector has handed back its bytes, or nothing. -/
def PendingSend.paid (p : PendingSend) : Option Bytes → PendingSend
  | some data => { p with payload := some data }
  | none => p

/-- A poll with the elements `messages` available: what it returns and what it queues. Source:
`OutboundStreamMessages::poll_consume`. -/
def pollConsumeMessages (messages : List StreamMessage) (finish : Bool) :
    Consumed × List PendingSend :=
  if messages.length = 0 then (if finish then .cancelled else .pending, [])
  else (.completed, messages.map .ofElement)

/-! ## The call and its streams -/

/-- An element taken from the guest's stream, with the bytes of its payload that are not read yet
and the collector that reads them. -/
structure Draining where
  element : StreamMessage
  unread : Bytes
  collector : ByteCollector
deriving DecidableEq, Repr

/-- An element whose payload has just been piped. -/
def Draining.new (e : StreamMessage) : Draining := ⟨e, e.data, .new⟩

/-- The guest's stream is not piped to `OutboundStreamMessages` yet, is piped, or its consumer, and
with it the queue's sender, is dropped. -/
inductive Pipe where
  | unpiped
  | piped
  | dropped
deriving DecidableEq, Repr

/-- A `send_via_stream` and the guest's streams: the elements not taken yet and those taken; and for
reference the messages handed to the transport, those it took, and the element whose send it
failed. -/
structure Streaming where
  wired : Option (Except WebrtcError Unit)
  call : SendCall
  pipe : Pipe
  unread : List StreamMessage
  draining : List Draining
  transport : List Message
  handed : List Message
  failed : Option Nat

/-- The wiring resolves; the call goes on, or gets the transport's or `ready_state`'s answer; the
runtime polls the consumer of the elements or a collector, with `n` items available, or drops it. -/
inductive StreamingAct where
  | wire (result : Except WebrtcError Unit)
  | poll
  | answer (result : Except String Unit)
  | state (isOpen : Bool)
  | consume (n : Nat) (finish : Bool)
  | drop
  | collect (i n : Nat) (finish : Bool)
  | dropCollector (i : Nat)
deriving DecidableEq

namespace Streaming

/-- A call that has just been made. -/
def start (elements : List StreamMessage) : Streaming :=
  { wired := none, call := .new none, pipe := .unpiped, unread := elements, draining := [],
    transport := [], handed := [], failed := none }

/-- The consumer of the elements is dropped. -/
def endElements (s : Streaming) : Streaming :=
  { s with pipe := .dropped, call := { s.call with exhausted := true } }

/-- A collector has been polled or dropped; what it hands back completes the element's payload. -/
def collected (s : Streaming) (i : Nat) (d : Draining) (r : ByteCollector × Option Bytes) :
    Streaming :=
  { s with
    draining := s.draining.set i { d with collector := r.1 }
    call := { s.call with elements := s.call.elements.modify i (·.paid r.2) } }

/-- One step on a connection that is open. A consumer is polled with `finish` and nothing
available, and it is dropped, only when its stream is ending; a consumer that returns `Cancelled` is
dropped. -/
def step (s : Streaming) : StreamingAct → Option Streaming
  | .wire result => if s.wired = none then some { s with wired := some result } else none
  | .poll =>
    (s.call.poll s.wired false).map fun p =>
      { s with
        call := p.1
        pipe := if s.call.stage = .wiring ∧ p.1.stage = .next then .piped else s.pipe
        transport := s.transport ++ p.2.toList }
  | .answer result =>
    (s.call.answered result).map fun c =>
      { s with
        call := c
        handed :=
          match result with
          | .ok () => s.handed ++ s.transport.getLast?.toList
          | .error _ => s.handed
        failed :=
          match result with
          | .ok () => s.failed
          | .error _ => some (s.transport.length - 1) }
  | .state isOpen => (s.call.stated isOpen).map fun c => { s with call := c }
  | .consume n finish =>
    if s.pipe = .piped ∧ n ≤ s.unread.length ∧ (n = 0 → finish = true → s.unread = []) then
      let r := pollConsumeMessages (s.unread.take n) finish
      let s' :=
        { s with
          unread := s.unread.drop n
          draining := s.draining ++ (s.unread.take n).map .new
          call := { s.call with elements := s.call.elements ++ r.2 } }
      some (if r.1 = .cancelled then s'.endElements else s')
    else none
  | .drop => if s.pipe = .piped ∧ s.unread = [] then some s.endElements else none
  | .collect i n finish =>
    (s.draining[i]?).bind fun d =>
      if n ≤ d.unread.length ∧ (n = 0 → finish = true → d.unread = []) then
        some (s.collected i { d with unread := d.unread.drop n }
          (d.collector.pollConsume (d.unread.take n) finish).2)
      else none
  | .dropCollector i =>
    (s.draining[i]?).bind fun d =>
      if d.unread = [] then some (s.collected i d d.collector.finish) else none

end Streaming

/-! ## Elements and what is queued for them -/

/-- What is queued for an element: its kind and length, and its payload once it is drained. -/
structure Slot (d : Draining) (p : PendingSend) : Prop where
  kind : p.isString = decide (d.element.kind = .string)
  length : p.length = d.element.length
  waiting : p.payload = none → d.collector.doneTx = true ∧
    d.collector.buf ++ d.unread = d.element.data
  drained : ∀ data, p.payload = some data → data = d.element.data ∧ d.collector.doneTx = false

theorem slot_new (e : StreamMessage) : Slot (.new e) (.ofElement e) :=
  ⟨rfl, rfl, fun _ => ⟨rfl, rfl⟩, nofun⟩

section
variable {α β : Type} {R : α → β → Prop} {xs : List α} {ys : List β} {x : α} {y : β} {i : Nat}

/-- Related lists have related elements. -/
theorem forall₂_getElem? (h : List.Forall₂ R xs ys) (hy : ys[i]? = some y) :
    ∃ x, xs[i]? = some x ∧ R x y := by
  induction h generalizing i with
  | nil => cases hy
  | cons hr _ ih =>
    cases i with
    | zero => cases hy; exact ⟨_, rfl, hr⟩
    | succ i => exact ih hy

/-- The elements at an index of related lists are replaced by related ones. -/
theorem forall₂_set_modify {x' : α} {f : β → β} (h : List.Forall₂ R xs ys) (hx : xs[i]? = some x)
    (hf : ∀ y, R x y → R x' (f y)) : List.Forall₂ R (xs.set i x') (ys.modify i f) := by
  induction h generalizing i with
  | nil => cases hx
  | cons hr htail ih =>
    cases i with
    | zero => cases hx; exact .cons (hf _ hr) htail
    | succ i => exact .cons hr (ih hx)

/-- Related lists are appended. -/
theorem forall₂_append {xs' : List α} {ys' : List β} (h : List.Forall₂ R xs ys)
    (h' : List.Forall₂ R xs' ys') : List.Forall₂ R (xs ++ xs') (ys ++ ys') := by
  induction h with
  | nil => exact h'
  | cons hr _ ih => exact .cons hr ih

end

/-- What the driver makes of an element whose payload is drained: its message, when the element is
what it declares, and an error otherwise. -/
theorem Slot.outgoing {d : Draining} {p : PendingSend} (h : Slot d p) :
    (∃ m, p.outgoing d.element.data = .ok m ∧ Carries m d.element ∧ Kept d.element) ∨
    ∃ e, p.outgoing d.element.data = .error e ∧ ¬ Kept d.element := by
  unfold PendingSend.outgoing
  rw [h.length, h.kind]
  by_cases htotal : d.element.data.length = d.element.length
  · rw [if_neg (not_not_intro htotal)]
    cases hkind : d.element.kind with
    | binary =>
      exact .inl ⟨.binary d.element.data, by simp [Host.outgoing], ⟨hkind, rfl⟩, htotal,
        by rw [hkind]; exact nofun⟩
    | string =>
      cases htext : fromUtf8 d.element.data with
      | none =>
        refine .inr ⟨_, by simp only [Host.outgoing, htext, decide_true, if_true]; rfl,
          fun hk => ?_⟩
        have := hk.text hkind
        rw [htext] at this
        cases this
      | some text =>
        exact .inl ⟨.string text, by simp [Host.outgoing, htext],
          Contract.carries_string hkind htext, htotal, fun _ => by rw [htext]; rfl⟩
  · rw [if_pos htotal]
    exact .inr ⟨_, rfl, fun hk => htotal hk.total⟩

/-! ## The consumers -/

/-- Everything available is queued. -/
theorem pollConsumeMessages_queues (messages : List StreamMessage) (finish : Bool) :
    (pollConsumeMessages messages finish).2 = messages.map .ofElement := by
  unfold pollConsumeMessages
  split
  · next h => rw [List.length_eq_zero_iff.1 h]; rfl
  · rfl

/-- The consumer of the elements cancels only when it is finished with nothing available. -/
theorem cancelled_of_finish {messages : List StreamMessage} {finish : Bool}
    (h : (pollConsumeMessages messages finish).1 = .cancelled) :
    messages.length = 0 ∧ finish = true := by
  unfold pollConsumeMessages at h
  split at h
  · next hlen =>
    cases finish with
    | true => exact ⟨hlen, rfl⟩
    | false => cases h
  · cases h

/-- A collector whose stream has ended hands back the whole payload, once. -/
theorem Slot.finish {d : Draining} {p : PendingSend} (h : Slot d p) (hend : d.unread = []) :
    Slot { d with collector := d.collector.finish.1 } (p.paid d.collector.finish.2) := by
  unfold ByteCollector.finish
  cases hdone : d.collector.doneTx with
  | false =>
    rw [if_neg Bool.false_ne_true]
    exact h
  | true =>
    rw [if_pos rfl]
    refine ⟨h.kind, h.length, nofun, ?_⟩
    rintro data ⟨⟩
    cases hp : p.payload with
    | none =>
      have hbytes := (h.waiting hp).2
      rw [hend, List.append_nil] at hbytes
      exact ⟨hbytes, rfl⟩
    | some data' =>
      have hnot := (h.drained data' hp).2
      rw [hdone] at hnot
      cases hnot

/-- The payload is there once its collector is finished. -/
theorem Slot.paid {d : Draining} {p : PendingSend} (h : Slot d p) (hend : d.unread = []) :
    (p.paid d.collector.finish.2).payload.isSome := by
  rw [Option.isSome_iff_ne_none]
  intro hnone
  have hdone := ((h.finish hend).waiting hnone).1
  unfold ByteCollector.finish at hdone
  split at hdone
  · cases hdone
  · next hnot => exact hnot hdone

/-- A poll of a collector reads what is available, or finishes it at the end of its stream. -/
theorem Slot.pollConsume {d : Draining} {p : PendingSend} (h : Slot d p) {n : Nat} {finish : Bool}
    (hn : n ≤ d.unread.length) (hend : n = 0 → finish = true → d.unread = []) :
    let r := (d.collector.pollConsume (d.unread.take n) finish).2
    Slot { d with unread := d.unread.drop n, collector := r.1 } (p.paid r.2) := by
  unfold ByteCollector.pollConsume
  rw [List.length_take, Nat.min_eq_left hn]
  by_cases hpos : n > 0
  · rw [if_pos hpos]
    refine ⟨h.kind, h.length, fun hp => ?_, h.drained⟩
    obtain ⟨hdone, hbytes⟩ := h.waiting hp
    refine ⟨hdone, ?_⟩
    rw [List.append_assoc, List.take_append_drop, hbytes]
  · obtain rfl : n = 0 := Nat.le_zero.1 (Nat.not_lt.1 hpos)
    rw [if_neg hpos]
    cases finish with
    | true => exact h.finish (hend rfl rfl)
    | false => exact h

/-! ## The driver -/

namespace Streaming

/-- Where a driver at a stage stands among the elements. -/
def Stands (elements : List StreamMessage) (s : Streaming) : Stage → Prop
  | .start | .wiring =>
    s.failed = none ∧ s.transport = [] ∧ s.handed = [] ∧ s.call.taken = 0 ∧ s.pipe = .unpiped
  | .next => s.failed = none ∧ s.transport = s.handed ∧ s.call.taken = s.handed.length
  | .payload => s.failed = none ∧ s.transport = s.handed ∧ s.call.taken = s.handed.length + 1
  | .handing =>
    s.failed = none ∧ (∃ m, s.transport = s.handed ++ [m]) ∧ s.call.taken = s.handed.length + 1
  | .checking _ => s.failed = some s.handed.length ∧ ∃ m, s.transport = s.handed ++ [m]
  | .done (.ok ()) =>
    s.failed = none ∧ s.transport = s.handed ∧ s.handed.length = elements.length
  | .done (.error e) =>
    (s.wired = some (.error e) ∧ s.failed = none ∧ s.transport = [] ∧ s.handed = []) ∨
    ∃ x, elements[s.handed.length]? = some x ∧
      ((s.failed = some s.handed.length ∧ ∃ m, s.transport = s.handed ++ [m]) ∨
        (¬ Kept x ∧ s.failed = none ∧ s.transport = s.handed))

/-- The element whose send failed, once the call has returned. -/
def reported (s : Streaming) : Option Nat := s.call.streamResult.bind fun _ => s.failed

/-- How the call goes on to its end. It takes an element that is queued, whose payload is there once
it is read; with the payload drained it hands the element over if that is what it declares, and
otherwise returns its index; a message that the transport takes is followed by the next element, and
its refusal is a failure of the element after those it took; the call of a failed send returns that
element's index when it is told the channel's state; and with no element left it returns. -/
structure Ends (elements : List StreamMessage) (s : Streaming) : Prop where
  takes : s.call.stage = .next → s.call.taken < s.call.elements.length →
    ∃ s', s.step .poll = some s' ∧ s'.call.stage = .payload
  pays : ∀ (i : Nat) d, s.draining[i]? = some d → d.unread = [] →
    ∃ s' p, s.step (.collect i 0 true) = some s' ∧ s'.call.elements[i]? = some p ∧
      p.payload.isSome
  accepted : s.call.stage = .handing → ∃ s', s.step (.answer (.ok ())) = some s' ∧
    s'.handed = s.transport ∧ s'.call.stage = .next
  finishes : s.call.stage = .next → s.call.elements.length ≤ s.call.taken →
    s.call.exhausted = true →
    ∃ s', s.step .poll = some s' ∧ s'.call.streamResult = some (.ok ())
  failing : ∀ reason, s.call.stage = .handing →
    ∃ s', s.step (.answer (.error reason)) = some s' ∧ s'.failed = some s.handed.length
  stopped : ∀ n, s.failed = some n → s.call.streamResult = none → ∀ isOpen, ∃ s' e,
    s.step (.state isOpen) = some s' ∧ s'.call.streamResult = some (.error ⟨e, n⟩)
  drained : ∀ p x, s.call.stage = .payload → s.call.elements[s.call.taken - 1]? = some p →
    p.payload.isSome → elements[s.handed.length]? = some x → ∃ s', s.step .poll = some s' ∧
      (Kept x → ∃ m, s'.transport = s.transport ++ [m] ∧ Carries m x) ∧
      (¬ Kept x → ∃ e, s'.call.streamResult = some (.error ⟨e, s.handed.length⟩))

/-- What holds in every state. -/
structure Inv (elements : List StreamMessage) (s : Streaming) : Prop where
  whole : s.draining.map (·.element) ++ s.unread = elements
  slots : List.Forall₂ Slot s.draining s.call.elements
  stream : s.call.message = none
  ended : s.call.exhausted = true → s.pipe = .dropped ∧ s.unread = []
  sent : s.call.sent = s.handed.length
  sends : Matches elements s.transport
  stands : s.Stands elements s.call.stage

section
variable {elements : List StreamMessage} {s s' : Streaming} {a : StreamingAct}

theorem inv_start : (start elements).Inv elements :=
  ⟨rfl, .nil, rfl, nofun, rfl, Contract.matches_nil, rfl, rfl, rfl, rfl, rfl⟩

/-- The element behind what the driver has taken from its queue. -/
theorem Inv.element (hi : s.Inv elements) {i : Nat} {p : PendingSend}
    (hp : s.call.elements[i]? = some p) :
    ∃ d, Slot d p ∧ elements[i]? = some d.element := by
  obtain ⟨d, hd, hslot⟩ := forall₂_getElem? hi.slots hp
  refine ⟨d, hslot, ?_⟩
  rw [← hi.whole, List.getElem?_append_left (by simpa using (List.getElem?_eq_some_iff.1 hd).1),
    List.getElem?_map, hd]
  rfl

/-- The element whose message is in flight. -/
theorem Inv.flying (hi : s.Inv elements) {m : Message} (h : s.transport = s.handed ++ [m]) :
    ∃ x, elements[s.handed.length]? = some x := by
  obtain ⟨x, hx, -⟩ := hi.sends s.handed.length m (by rw [h]; simp)
  exact ⟨x, hx⟩

/-- The driver goes on from its await. -/
theorem Inv.poll (hi : s.Inv elements) (h : s.step .poll = some s') : s'.Inv elements := by
  obtain ⟨⟨c, o⟩, hp, rfl⟩ := Option.map_eq_some_iff.1 h
  have hs := hi.stands
  have hsends : Matches elements (s.transport ++ (none : Option Message).toList) := by
    simpa using hi.sends
  unfold SendCall.poll at hp
  split at hp
  · next hstage =>
    rw [hstage] at hs
    simp only [hi.stream, Option.isSome_none, Bool.false_and, Bool.false_eq_true, if_false] at hp
    cases hp
    simp only [hstage, reduceCtorEq, false_and, if_false]
    refine ⟨hi.whole, hi.slots, rfl, hi.ended, hi.sent, hsends, ?_⟩
    simpa [Stands] using hs
  · next hstage =>
    rw [hstage] at hs
    obtain ⟨hfailed, htransport, hhanded, htaken, hpipe⟩ := hs
    simp only [hi.stream] at hp
    split at hp
    · cases hp
    · next e hw =>
      cases hp
      simp only [reduceCtorEq, and_false, if_false]
      refine ⟨hi.whole, hi.slots, rfl, hi.ended, hi.sent, hsends,
        .inl ⟨hw, hfailed, ?_, hhanded⟩⟩
      simp [htransport]
    · next hw =>
      cases hp
      refine ⟨hi.whole, hi.slots, rfl, fun hended => ?_, hi.sent, hsends, hfailed, ?_, ?_⟩
      · have hdropped := (hi.ended hended).1
        rw [hpipe] at hdropped
        cases hdropped
      · simp [htransport, hhanded]
      · rw [hhanded]; exact htaken
  · next hstage =>
    rw [hstage] at hs
    obtain ⟨hfailed, htransport, htaken⟩ := hs
    simp only [hstage, reduceCtorEq, false_and, if_false]
    split at hp
    · next p hget =>
      cases hp
      refine ⟨hi.whole, hi.slots, hi.stream, hi.ended, hi.sent, hsends, hfailed, ?_, ?_⟩
      · simpa using htransport
      · exact congrArg (· + 1) htaken
    · next hget =>
      split at hp
      · next hended =>
        cases hp
        refine ⟨hi.whole, hi.slots, hi.stream, hi.ended, hi.sent, hsends, hfailed, ?_, ?_⟩
        · simpa using htransport
        · have hle : s.handed.length ≤ elements.length := htransport ▸ hi.sends.length_le
          have hge : s.call.elements.length ≤ s.handed.length :=
            htaken ▸ List.getElem?_eq_none_iff.1 hget
          have hall : elements.length = s.call.elements.length := by
            rw [← hi.whole, (hi.ended hended).2, List.append_nil, List.length_map,
              hi.slots.length_eq]
          exact Nat.le_antisymm hle (hall ▸ hge)
      · cases hp
  · next hstage =>
    rw [hstage] at hs
    obtain ⟨hfailed, htransport, htaken⟩ := hs
    simp only [hstage, reduceCtorEq, false_and, if_false]
    split at hp
    · cases hp
    · next p hget =>
      obtain ⟨data, hdata, hhand⟩ := Option.map_eq_some_iff.1 hp
      rw [htaken, Nat.add_sub_cancel] at hget
      obtain ⟨d, hslot, hd⟩ := hi.element hget
      obtain ⟨rfl, -⟩ := hslot.drained data hdata
      rcases hslot.outgoing with ⟨m, hm, hcarries, hkept⟩ | ⟨e, he, hkept⟩
      · rw [hm] at hhand
        cases hhand
        refine ⟨hi.whole, hi.slots, hi.stream, hi.ended, hi.sent, ?_, hfailed, ⟨m, ?_⟩, htaken⟩
        · exact Contract.matches_append hi.sends (htransport ▸ hd) hcarries hkept
        · simp [htransport]
      · rw [he] at hhand
        cases hhand
        refine ⟨hi.whole, hi.slots, hi.stream, hi.ended, hi.sent, hsends,
          .inr ⟨_, hd, .inr ⟨hkept, hfailed, ?_⟩⟩⟩
        simpa using htransport
  · cases hp
  · cases hp
  · cases hp

/-- The transport's send or `ready_state` resolves. -/
theorem Inv.answer (hi : s.Inv elements) {result : Except String Unit}
    (h : s.step (.answer result) = some s') : s'.Inv elements := by
  obtain ⟨c, hc, rfl⟩ := Option.map_eq_some_iff.1 h
  have hs := hi.stands
  unfold SendCall.answered at hc
  split at hc
  · next hstage =>
    rw [hstage] at hs
    obtain ⟨hfailed, ⟨m, htransport⟩, htaken⟩ := hs
    cases result with
    | error reason =>
      cases hc
      refine ⟨hi.whole, hi.slots, hi.stream, hi.ended, hi.sent, hi.sends, ?_, m, htransport⟩
      simp [htransport]
    | ok u =>
      simp only [hi.stream] at hc
      cases hc
      have hhanded : s.handed ++ s.transport.getLast?.toList = s.transport := by
        rw [htransport, List.getLast?_concat]
        rfl
      have hlen : (s.handed ++ s.transport.getLast?.toList).length = s.handed.length + 1 := by
        rw [hhanded, htransport, List.length_append, List.length_singleton]
      exact ⟨hi.whole, hi.slots, rfl, hi.ended, (congrArg (· + 1) hi.sent).trans hlen.symm,
        hi.sends, hfailed, hhanded.symm, htaken.trans hlen.symm⟩
  · cases hc

theorem Inv.state (hi : s.Inv elements) {isOpen : Bool} (h : s.step (.state isOpen) = some s') :
    s'.Inv elements := by
  obtain ⟨c, hc, rfl⟩ := Option.map_eq_some_iff.1 h
  have hs := hi.stands
  unfold SendCall.stated at hc
  split at hc
  · next reason hstage =>
    rw [hstage] at hs
    obtain ⟨hfailed, m, htransport⟩ := hs
    cases hc
    obtain ⟨x, hx⟩ := hi.flying htransport
    exact ⟨hi.whole, hi.slots, hi.stream, hi.ended, hi.sent, hi.sends,
      .inr ⟨x, hx, .inl ⟨hfailed, m, htransport⟩⟩⟩
  · cases hc

/-- The end of the guest's stream changes nothing for a driver whose stream is piped. -/
theorem stands_endElements {stage : Stage} (h : s.Stands elements stage) (hp : s.pipe = .piped) :
    s.endElements.Stands elements stage := by
  cases stage with
  | start | wiring =>
    obtain ⟨-, -, -, -, hpipe⟩ := h
    rw [hp] at hpipe
    cases hpipe
  | next | payload | handing | checking => exact h
  | done r => cases r <;> exact h

/-- The consumer of the elements is dropped at the end of the guest's stream. -/
theorem Inv.endElements (hi : s.Inv elements) (hp : s.pipe = .piped) (hu : s.unread = []) :
    s.endElements.Inv elements :=
  ⟨hi.whole, hi.slots, hi.stream, fun _ => ⟨rfl, hu⟩, hi.sent, hi.sends,
    stands_endElements hi.stands hp⟩

/-- Elements are taken from the guest's stream and queued. -/
theorem Inv.taken (hi : s.Inv elements) (n : Nat) (hp : s.pipe = .piped) :
    Inv elements
      { s with
        unread := s.unread.drop n
        draining := s.draining ++ (s.unread.take n).map .new
        call := { s.call with
          elements := s.call.elements ++ (s.unread.take n).map .ofElement } } := by
  refine ⟨?_, forall₂_append hi.slots ?_, hi.stream, fun hended => ?_, hi.sent, hi.sends,
    hi.stands⟩
  · have hnew : ((s.unread.take n).map Draining.new).map (·.element) = s.unread.take n := by
      rw [List.map_map]
      exact List.map_id _
    rw [List.map_append, hnew, List.append_assoc, List.take_append_drop]
    exact hi.whole
  · rw [List.forall₂_map_left_iff, List.forall₂_map_right_iff, List.forall₂_same]
    exact fun e _ => slot_new e
  · have hdropped := (hi.ended hended).1
    rw [hp] at hdropped
    cases hdropped

/-- A collector is polled or dropped. -/
theorem Inv.collected (hi : s.Inv elements) {i : Nat} {d d' : Draining}
    {r : ByteCollector × Option Bytes} (hd : s.draining[i]? = some d)
    (he : d'.element = d.element)
    (hslot : ∀ p, Slot d p → Slot { d' with collector := r.1 } (p.paid r.2)) :
    (s.collected i d' r).Inv elements := by
  refine ⟨?_, forall₂_set_modify hi.slots hd hslot, hi.stream, hi.ended, hi.sent, hi.sends,
    hi.stands⟩
  have hmap : (s.draining.set i { d' with collector := r.1 }).map (·.element) =
      s.draining.map (·.element) := by
    obtain ⟨hlt, hget⟩ := List.getElem?_eq_some_iff.1 hd
    have hlt' : i < (s.draining.map (·.element)).length := by simpa using hlt
    have hsame : d'.element = (s.draining.map (·.element))[i] := by
      rw [List.getElem_map, hget, he]
    rw [List.map_set]
    exact hsame ▸ List.set_getElem_self hlt'
  exact (congrArg (· ++ s.unread) hmap).trans hi.whole

/-- Every step keeps the invariant. -/
theorem Inv.step (hi : s.Inv elements) (h : Streaming.step s a = some s') : s'.Inv elements := by
  cases a with
  | wire result =>
    simp only [Streaming.step] at h
    split at h
    · next hw =>
      cases h
      refine ⟨hi.whole, hi.slots, hi.stream, hi.ended, hi.sent, hi.sends, ?_⟩
      have hs := hi.stands
      cases hstage : s.call.stage with
      | done r =>
        rw [hstage] at hs
        cases r with
        | ok u => exact hs
        | error e =>
          rcases hs with ⟨hwired, -⟩ | hs
          · rw [hw] at hwired
            cases hwired
          · exact .inr hs
      | start | wiring | next | payload | handing | checking => rw [hstage] at hs; exact hs
    · cases h
  | poll => exact hi.poll h
  | answer result => exact hi.answer h
  | state isOpen => exact hi.state h
  | consume n finish =>
    simp only [Streaming.step] at h
    split at h
    · next hn =>
      obtain ⟨hp, hn, hend⟩ := hn
      cases h
      simp only [pollConsumeMessages_queues]
      have htaken := hi.taken n hp
      split
      · next hcancelled =>
        obtain ⟨hlen, hfinish⟩ := cancelled_of_finish hcancelled
        rw [List.length_take, Nat.min_eq_left hn] at hlen
        have hunread : s.unread.drop n = [] := by rw [hend hlen hfinish, List.drop_nil]
        exact htaken.endElements hp hunread
      · exact htaken
    · cases h
  | drop =>
    simp only [Streaming.step] at h
    split at h
    · next hp => cases h; exact hi.endElements hp.1 hp.2
    · cases h
  | collect i n finish =>
    obtain ⟨d, hd, h⟩ := Option.bind_eq_some_iff.1 h
    split at h
    · next hn =>
      cases h
      exact hi.collected hd rfl fun p hslot => hslot.pollConsume hn.1 hn.2
    · cases h
  | dropCollector i =>
    obtain ⟨d, hd, h⟩ := Option.bind_eq_some_iff.1 h
    split at h
    · next hend => cases h; exact hi.collected hd rfl fun p hslot => hslot.finish hend
    · cases h

/-- The messages that the transport took are all but the one in flight, or refused. -/
theorem Inv.handed_took (hi : s.Inv elements) :
    s.handed <+: s.transport ∧ s.transport.length ≤ s.handed.length + 1 := by
  have hall : s.transport = s.handed →
      s.handed <+: s.transport ∧ s.transport.length ≤ s.handed.length + 1 := by
    intro h
    rw [h]
    exact ⟨List.prefix_refl _, Nat.le_succ _⟩
  have hflying : (∃ m, s.transport = s.handed ++ [m]) →
      s.handed <+: s.transport ∧ s.transport.length ≤ s.handed.length + 1 := by
    rintro ⟨m, h⟩
    rw [h]
    exact ⟨List.prefix_append _ _, by simp⟩
  have hs := hi.stands
  cases hstage : s.call.stage with
  | start | wiring => rw [hstage] at hs; exact hall (hs.2.1.trans hs.2.2.1.symm)
  | next | payload => rw [hstage] at hs; exact hall hs.2.1
  | handing => rw [hstage] at hs; exact hflying hs.2.1
  | checking => rw [hstage] at hs; exact hflying hs.2
  | done r =>
    rw [hstage] at hs
    cases r with
    | ok u => exact hall hs.2.1
    | error e =>
      rcases hs with ⟨-, -, htransport, hhanded⟩ | ⟨x, -, ⟨-, h⟩ | ⟨-, -, h⟩⟩
      · exact hall (htransport.trans hhanded.symm)
      · exact hflying h
      · exact hall h

/-- What the call has sent and returned, unless its channel could not be wired. -/
theorem Inv.faithful (hi : s.Inv elements) :
    Faithful elements s.handed s.reported s.call.streamResult ∨
      ∃ e, s.wired = some (.error e) ∧ s.transport = [] ∧
        s.call.streamResult = some (.error ⟨e, 0⟩) := by
  have hsends : Matches elements s.handed := by
    intro i m hm
    obtain ⟨rest, hrest⟩ := hi.handed_took.1
    refine hi.sends i m ?_
    rw [← hrest, List.getElem?_append_left (List.getElem?_eq_some_iff.1 hm).1, hm]
  have hs := hi.stands
  unfold reported
  cases hstage : s.call.stage with
  | start | wiring | next | payload | handing | checking =>
    have hresult : s.call.streamResult = none := by simp only [SendCall.streamResult, hstage]
    rw [hresult]
    exact .inl (Contract.faithful_pending hsends)
  | done r =>
    rw [hstage] at hs
    cases r with
    | ok u =>
      obtain ⟨hfailed, -, hlen⟩ := hs
      have hresult : s.call.streamResult = some (.ok ()) := by
        simp only [SendCall.streamResult, hstage]
      rw [hfailed, hresult]
      exact .inl (Contract.faithful_ok hsends hlen)
    | error e =>
      have hresult : s.call.streamResult = some (.error ⟨e, s.handed.length⟩) := by
        simp only [SendCall.streamResult, hstage, hi.sent]
      rw [hresult]
      rcases hs with ⟨hwired, -, htransport, hhanded⟩ | ⟨x, hx, hcause⟩
      · exact .inr ⟨e, hwired, htransport, by rw [hhanded]; rfl⟩
      · exact .inl (Contract.faithful_error e hsends hx
          (hcause.imp (·.1) fun hshort => ⟨hshort.2.1, hshort.1⟩))

/-- A failed send leaves a call that has not returned at its question for the channel's state. -/
theorem Inv.checking (hi : s.Inv elements) {n : Nat} (hf : s.failed = some n)
    (hr : s.call.streamResult = none) :
    n = s.handed.length ∧ ∃ reason, s.call.stage = .checking reason := by
  have hs := hi.stands
  cases hstage : s.call.stage with
  | checking reason =>
    rw [hstage] at hs
    exact ⟨Option.some.inj (hf.symm.trans hs.1), reason, rfl⟩
  | start | wiring | next | payload | handing =>
    rw [hstage] at hs
    cases hf.symm.trans hs.1
  | done r => cases r <;> simp only [SendCall.streamResult, hstage] at hr <;> cases hr

/-- The invariant gives the end of the call. -/
theorem Inv.ends (hi : s.Inv elements) : s.Ends elements where
  takes hstage htaken := by
    have hpoll : s.call.poll s.wired false =
        some ({ s.call with taken := s.call.taken + 1, stage := .payload }, none) := by
      simp only [SendCall.poll, hstage, List.getElem?_eq_getElem htaken, Bool.false_eq_true,
        if_false]
    exact ⟨_, Option.map_eq_some_iff.2 ⟨_, hpoll, rfl⟩, rfl⟩
  pays i d hd hend := by
    obtain ⟨p, hp, hslot⟩ := forall₂_getElem? hi.slots.flip hd
    have hstep : s.step (.collect i 0 true) =
        some (s.collected i { d with unread := d.unread.drop 0 } d.collector.finish) :=
      (congrArg (Option.bind · _) hd).trans (if_pos ⟨Nat.zero_le _, fun _ _ => hend⟩)
    refine ⟨_, _, hstep, ?_, hslot.paid hend⟩
    exact (List.getElem?_modify_eq ..).trans (congrArg (Option.map _) hp)
  accepted hstage := by
    have hs := hi.stands
    rw [hstage] at hs
    obtain ⟨-, ⟨m, htransport⟩, -⟩ := hs
    have hanswer : s.call.answered (.ok ()) =
        some { s.call with stage := .next, sent := s.call.sent + 1 } := by
      simp only [SendCall.answered, hstage, hi.stream]
    refine ⟨_, Option.map_eq_some_iff.2 ⟨_, hanswer, rfl⟩, ?_, rfl⟩
    simp [htransport]
  finishes hstage htaken hex := by
    have hpoll : s.call.poll s.wired false =
        some ({ s.call with stage := .done (.ok ()) }, none) := by
      simp only [SendCall.poll, hstage, List.getElem?_eq_none htaken, hex, if_true]
    exact ⟨_, Option.map_eq_some_iff.2 ⟨_, hpoll, rfl⟩, rfl⟩
  failing reason hstage := by
    have hs := hi.stands
    rw [hstage] at hs
    obtain ⟨-, ⟨m, htransport⟩, -⟩ := hs
    refine ⟨_, Option.map_eq_some_iff.2 ⟨_, by rw [SendCall.answered, hstage], rfl⟩, ?_⟩
    simp [htransport]
  stopped n hf hr isOpen := by
    obtain ⟨rfl, reason, hstage⟩ := hi.checking hf hr
    refine ⟨_, sendError reason isOpen,
      Option.map_eq_some_iff.2 ⟨_, by rw [SendCall.stated, hstage], rfl⟩, ?_⟩
    simp only [SendCall.streamResult, hi.sent]
  drained p x hstage hp hpaid hx := by
    have hs := hi.stands
    rw [hstage] at hs
    obtain ⟨-, -, htaken⟩ := hs
    obtain ⟨data, hdata⟩ := Option.isSome_iff_exists.1 hpaid
    have hpoll : s.call.poll s.wired false = some (s.call.hand (p.outgoing data)) := by
      simp only [SendCall.poll, hstage, hp, hdata, Option.map_some]
    rw [htaken, Nat.add_sub_cancel] at hp
    obtain ⟨d, hslot, hd⟩ := hi.element hp
    obtain rfl : d.element = x := Option.some.inj (hd.symm.trans hx)
    obtain ⟨rfl, -⟩ := hslot.drained data hdata
    refine ⟨_, Option.map_eq_some_iff.2 ⟨_, hpoll, rfl⟩, fun hkept => ?_, fun hkept => ?_⟩
    · obtain ⟨m, hm, hcarries, -⟩ | ⟨_, _, hnot⟩ := hslot.outgoing
      · exact ⟨m, by simp [hm, SendCall.hand], hcarries⟩
      · exact absurd hkept hnot
    · obtain ⟨_, _, _, hkept'⟩ | ⟨e, he, -⟩ := hslot.outgoing
      · exact absurd hkept' hkept
      · exact ⟨e, by simp [he, SendCall.hand, SendCall.streamResult, hi.sent]⟩

/-- In every run of a `send_via_stream` on a connection that stays open, whatever the batches, the
chunks and the order in which the payloads are drained: the messages handed to the transport are the
first elements, each of which is what it declares, and the transport took all of them but at most
the last; the call sends exactly the declared messages, unless its channel could not be wired: then
it sends nothing and returns that error; and the call goes on until an element that is not what it
declares, or whose send the transport fails, ends it, or no element is left. -/
theorem host_sends_declared {as : List StreamingAct}
    (h : Runs.run Streaming.step (start elements) as = some s) :
    Matches elements s.transport ∧
    (s.handed <+: s.transport ∧ s.transport.length ≤ s.handed.length + 1) ∧
    (Faithful elements s.handed s.reported s.call.streamResult ∨
      ∃ e, s.wired = some (.error e) ∧ s.transport = [] ∧
        s.call.streamResult = some (.error ⟨e, 0⟩)) ∧
    s.Ends elements := by
  have hi : s.Inv elements := Runs.invariant (fun _ _ _ hi h => hi.step h) inv_start h
  exact ⟨hi.sends, hi.handed_took, hi.faithful, hi.ends⟩

end

/-- Two elements are taken in one batch; the second payload is drained first; the second element is
one byte short of what it declares. -/
theorem host_sends_declared_of_short :
    ∃ s, Runs.run Streaming.step (start [⟨.binary, 2, [7, 8]⟩, ⟨.string, 2, [104]⟩])
        [.wire (.ok ()), .poll, .poll, .consume 2 false, .collect 1 1 false, .dropCollector 1,
          .poll, .collect 0 1 false, .drop, .collect 0 1 true, .collect 0 0 true, .poll,
          .answer (.ok ()), .poll, .poll] = some s ∧
      s.handed = [.binary [7, 8]] ∧
      (∃ e, s.call.streamResult = some (.error ⟨e, 1⟩)) ∧
      Faithful [⟨.binary, 2, [7, 8]⟩, ⟨.string, 2, [104]⟩] s.handed s.reported
        s.call.streamResult := by
  have hrun : ∃ s, Runs.run Streaming.step (start [⟨.binary, 2, [7, 8]⟩, ⟨.string, 2, [104]⟩])
        [.wire (.ok ()), .poll, .poll, .consume 2 false, .collect 1 1 false, .dropCollector 1,
          .poll, .collect 0 1 false, .drop, .collect 0 1 true, .collect 0 0 true, .poll,
          .answer (.ok ()), .poll, .poll] = some s ∧
      s.handed = [.binary [7, 8]] ∧ s.wired = some (.ok ()) ∧
      ∃ e, s.call.streamResult = some (.error ⟨e, 1⟩) := ⟨_, rfl, rfl, rfl, _, rfl⟩
  obtain ⟨s, hs, hhanded, hwired, e, hresult⟩ := hrun
  refine ⟨s, hs, hhanded, ⟨e, hresult⟩, ?_⟩
  rcases (host_sends_declared hs).2.2.1 with hfaithful | ⟨e', hfailed, -⟩
  · exact hfaithful
  · rw [hwired] at hfailed
    cases hfailed

end Streaming

end WebrtcDatachannels.Host
