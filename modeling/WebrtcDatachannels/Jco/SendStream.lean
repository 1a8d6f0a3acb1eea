import WebrtcDatachannels.Contract.StreamMessages
import WebrtcDatachannels.Jco.Send

/-!
# The messages of a browser-first `sendViaStream`

One `sendViaStream` of `jco-impl/webrtc.js`, with the guest's stream of elements in either of its
forms, the payload streams in any of their three, and every other call on the channel at work beside
it. What is sent of a text is its decoding by a `TextDecoder`, which drops a byte order mark and
replaces what is not UTF-8, so the messages are the declared ones, and the first element that is not
as long as declared or whose `send` fails ends the call, along exactly the runs in which the channel
takes no such text (`jco_sends_declared_iff`).
-/

namespace WebrtcDatachannels.Jco

open Contract (Kept Carries Matches Faithful)

/-! ## Bytes and texts -/

/-- A value read from a WIT byte stream, by how the runtime batched the read. -/
inductive ByteValue where
  | number (n : UInt8)
  | array (ns : List UInt8)
  | typed (bytes : Bytes)
deriving DecidableEq, Repr

/-- Source: `toByteChunk`. -/
def toByteChunk : ByteValue → Bytes
  | .number n => [n]
  | .typed bytes => bytes
  | .array ns => ns

/-- The bytes of a value; `undefined` and `null` have none. -/
def valueBytes (value : Option ByteValue) : Bytes := (value.map toByteChunk).getD []

/-- The chunks collected so far, and their bytes. Source: `collectByteStream`. -/
structure Collected where
  chunks : List Bytes
  total : Nat
deriving DecidableEq, Repr

/-- Source: the `push` of `collectByteStream`. -/
def Collected.push (c : Collected) : Option ByteValue → Collected
  | none => c
  | some value =>
    let chunk := toByteChunk value
    if chunk.length ≠ 0 then { chunks := c.chunks ++ [chunk], total := c.total + chunk.length }
    else c

/-- `out.set(chunk, offset)`. -/
def setChunk (out chunk : Bytes) (offset : Nat) : Bytes :=
  out.take offset ++ chunk ++ out.drop (offset + chunk.length)

/-- Source: `concatChunks`. -/
def concatChunks (chunks : List Bytes) (total : Nat) : Bytes :=
  (chunks.foldl (fun p chunk => (setChunk p.1 chunk p.2, p.2 + chunk.length))
    (List.replicate total 0, 0)).1

/-- The form of a payload stream: a `ReadableStream`, an object that is read in batches, or an
asynchronous iterable. -/
inductive Reader where
  | readable
  | batches
  | iterable
deriving DecidableEq, Repr

/-- What is collected after a read; only a read in batches looks at the value that comes with the
end. Source: `collectByteStream`. -/
def Reader.collect (r : Reader) (c : Collected) (value : Option ByteValue) (done : Bool) :
    Collected :=
  match r with
  | .batches => c.push value
  | .readable | .iterable => if done then c else c.push value

/-- The UTF-8 byte order mark. -/
def byteOrderMark : Bytes := [0xEF, 0xBB, 0xBF]

/-- `new TextDecoder().decode(bytes)`: without a byte order mark at the start, and with U+FFFD for
each invalid sequence. -/
def textDecode (bytes : Bytes) : String :=
  fromUtf8Lossy (if byteOrderMark.isPrefixOf bytes then bytes.drop byteOrderMark.length else bytes)

/-- The message of a collected element. Source: `sendViaStream`. -/
def elementMessage (kind : MessageKind) (bytes : Bytes) : Message :=
  match kind with
  | .string => .string (textDecode bytes)
  | .binary => .binary bytes

/-- The text of an element survives a `TextDecoder`: it is UTF-8, without a byte order mark. -/
def Exact (e : StreamMessage) : Prop :=
  e.kind = .string → (fromUtf8 e.data).isSome ∧ ¬ byteOrderMark <+: e.data

/-! ## The call and its streams -/

/-- An element of the guest's stream, and the form of its payload stream. -/
structure Item where
  message : StreamMessage
  reader : Reader
deriving DecidableEq, Repr

/-- The form of the guest's stream: a `ReadableStream`, or jco's asynchronous iterable, which may
yield its elements in arrays. -/
inductive Source where
  | readable
  | iterable
deriving DecidableEq, Repr

/-- What a read of the guest's stream resolves to. -/
inductive ItemsValue where
  | element (e : Item)
  | array (es : List Item)
  | done
deriving DecidableEq, Repr

/-- Where a `sendViaStream` stands: awaiting the guest's stream, awaiting an element's payload,
awaiting its own `send` of the element, or settled. -/
inductive StreamStage where
  | iterating
  | collecting (c : Collected)
  | sending (k : Nat)
  | done (result : Except SendViaStreamError Unit)

/-- A `sendViaStream` on a channel and the guest's streams: the elements not read yet, those read
and not yielded yet, those yielded, and the bytes not read of the last one's payload; and for
reference the messages that the channel took from the call, and the element whose `send` failed. -/
structure Streaming where
  outbound : Outbound
  source : Source
  stage : StreamStage
  sent : Nat
  unread : List Item
  batch : List Item
  taken : List Item
  payload : Bytes
  handed : List Message
  failed : Option Nat

/-- A read of the guest's stream or of a payload resolves; the channel takes a step; or the awaited
`send` is settled and the call resumes. -/
inductive StreamingAct where
  | items (value : ItemsValue)
  | read (value : Option ByteValue) (done : Bool)
  | channel (a : SendAct)
  | settle

namespace Streaming

/-- A call that has not read anything yet. -/
def start (outbound : Outbound) (source : Source) (items : List Item) : Streaming :=
  { outbound, source, stage := .iterating, sent := 0, unread := items, batch := [], taken := [],
    payload := [], handed := [], failed := none }

/-- The guest's stream can make a read resolve to this. -/
def offersItems (s : Streaming) : ItemsValue → Prop
  | .element e => s.unread.head? = some e
  | .array es => s.source = .iterable ∧ es <+: s.unread
  | .done => s.unread = []

instance (s : Streaming) : (value : ItemsValue) → Decidable (s.offersItems value)
  | .element _ => inferInstanceAs (Decidable (_ = _))
  | .array _ => inferInstanceAs (Decidable (_ ∧ _))
  | .done => inferInstanceAs (Decidable (_ = _))

/-- A payload stream of the form can make a read resolve to this. -/
def offersBytes (s : Streaming) (value : Option ByteValue) (done : Bool) : Reader → Prop
  | .batches => valueBytes value <+: s.payload ∧ (done = true → valueBytes value = s.payload)
  | .readable | .iterable =>
    (done = true → s.payload = []) ∧ (done = false → valueBytes value <+: s.payload)

instance (s : Streaming) (value : Option ByteValue) (done : Bool) :
    (r : Reader) → Decidable (s.offersBytes value done r)
  | .batches | .readable | .iterable => inferInstanceAs (Decidable (_ ∧ _))

/-- The loop goes on to the next element, which `streamItems` may have read already. -/
def next (s : Streaming) : Streaming :=
  match s.batch with
  | e :: rest =>
    { s with
      stage := .collecting ⟨[], 0⟩, batch := rest, taken := s.taken ++ [e]
      payload := e.message.data }
  | [] => { s with stage := .iterating }

/-- A read of the guest's stream resolves. Source: `streamItems`. -/
def iterated (s : Streaming) : ItemsValue → Streaming
  | .element e => { s with unread := s.unread.tail, batch := [e] }.next
  | .array es => { s with unread := s.unread.drop es.length, batch := es }.next
  | .done => { s with stage := .done (.ok ()) }

/-- An element is collected. Source: the loop body of `sendViaStream`. -/
def sendElement (s : Streaming) (e : StreamMessage) (bytes : Bytes) : Option Streaming :=
  if bytes.length ≠ e.length then
    some
      { s with
        stage := .done (.error
          ⟨.other ("stream-message payload was " ++ toString bytes.length ++
            " bytes but length declared " ++ toString e.length), s.sent⟩) }
  else
    (s.outbound.step (.send (elementMessage e.kind bytes))).map fun o =>
      { s with outbound := o, stage := .sending s.outbound.sends.length }

/-- A read of the payload resolves. Source: `collectByteStream`. -/
def collected (s : Streaming) (e : Item) (c : Collected) (value : Option ByteValue) (done : Bool) :
    Option Streaming :=
  let c' := e.reader.collect c value done
  let s' := { s with payload := s.payload.drop (valueBytes value).length }
  if done then s'.sendElement e.message (concatChunks c'.chunks c'.total)
  else some { s' with stage := .collecting c' }

/-- The awaited `send` is settled. -/
def settled (s : Streaming) : Except Error Unit → Streaming
  | .ok () => { s with sent := s.sent + 1 }.next
  | .error e => { s with stage := .done (.error ⟨e, s.sent⟩) }

/-- The messages that the channel takes from the call in a step to `o`. -/
def accepted (s : Streaming) (o : Outbound) : SendAct → List Message
  | .resume k _ =>
    match s.stage with
    | .sending k' => if k = k' then o.taken.drop s.outbound.taken.length else []
    | _ => []
  | _ => []

/-- The `send` of the element that the call has taken last fails when it resumes. -/
def sendFails (s : Streaming) : SendAct → Bool
  | .resume k answer =>
    match s.stage with
    | .sending k' => k = k' && (s.outbound.sends[k]?).any (·.fails answer)
    | _ => false
  | _ => false

/-- One step. -/
def step (s : Streaming) : StreamingAct → Option Streaming
  | .items value =>
    match s.stage with
    | .iterating => if s.offersItems value then some (s.iterated value) else none
    | _ => none
  | .read value done =>
    match s.stage, s.taken.getLast? with
    | .collecting c, some e =>
      if s.offersBytes value done e.reader then s.collected e c value done else none
    | _, _ => none
  | .channel a =>
    (s.outbound.step a).map fun o =>
      { s with
        outbound := o
        handed := s.handed ++ s.accepted o a
        failed := if s.sendFails a then some (s.taken.length - 1) else s.failed }
  | .settle =>
    match s.stage with
    | .sending k => ((s.outbound.sends[k]?).bind (·.result)).map s.settled
    | _ => none

/-- What the call's promise is settled with. -/
def result (s : Streaming) : Option (Except SendViaStreamError Unit) :=
  match s.stage with
  | .done r => some r
  | _ => none

/-- The element whose `send` failed, once the call is settled. -/
def reported (s : Streaming) : Option Nat := s.result.bind fun _ => s.failed

/-- How the call goes on to its end. It takes an element that its stream gives; with the payload of
its element read to the end it sends the element, or rejects with its index if the payload is not as
long as declared; a `send` that is fulfilled is followed by the next element; the channel's refusal
of a message is a failure of the element after those that it took, and a failed `send` makes the
call reject with that element's index when it resumes; and when the stream ends it resolves. -/
structure Ends (items : List Item) (s : Streaming) : Prop where
  takes : ∀ e rest, s.stage = .iterating → s.unread = e :: rest → ∃ s' c,
    s.step (.items (.element e)) = some s' ∧ s'.stage = .collecting c ∧ s'.taken = s.taken ++ [e]
  fulfilled : ∀ k c, s.stage = .sending k → s.outbound.sends[k]? = some c →
    c.result = some (.ok ()) → ∃ s', s.step .settle = some s' ∧ s'.sent = s.sent + 1 ∧
      (s'.stage = .iterating ∨ ∃ c, s'.stage = .collecting c)
  finishes : s.stage = .iterating → s.unread = [] → ∃ s',
    s.step (.items .done) = some s' ∧ s'.result = some (.ok ())
  failing : ∀ k reason, s.stage = .sending k → s.outbound.Hands k →
    ∃ s', s.step (.channel (.resume k (.error reason))) = some s' ∧ s'.failed = some s.handed.length
  stopped : ∀ n, s.failed = some n → s.result = none → ∃ s' e,
    s.step .settle = some s' ∧ s'.result = some (.error ⟨e, n⟩)
  collected : ∀ c e value, s.stage = .collecting c → items[s.handed.length]? = some e →
    s.offersBytes value true e.reader → ∃ s', s.step (.read value true) = some s' ∧
      (e.message.data.length = e.message.length → ∃ k c, s'.stage = .sending k ∧
        s'.outbound.sends[k]? = some c ∧
        c.message = elementMessage e.message.kind e.message.data) ∧
      (e.message.data.length ≠ e.message.length →
        ∃ error, s'.result = some (.error ⟨error, s.handed.length⟩))

/-- The call has sent exactly the declared messages so far, and ends at an element that it cannot
send. -/
structure Sound (items : List Item) (s : Streaming) : Prop where
  faithful : Faithful (items.map (·.message)) s.handed s.reported s.result
  ends : s.Ends items

/-- A step does not make the channel take an element's text that a `TextDecoder` changes. -/
def HandsExact (s : Streaming) : StreamingAct → Prop
  | .channel (.resume k (.ok ())) =>
    s.stage = .sending k → s.outbound.Hands k →
      ∀ e, s.taken.getLast? = some e → Exact e.message
  | _ => True

end Streaming

/-! ## Collecting a payload -/

section
variable {c : Collected} {out : Bytes}

/-- The chunks collected are `out`. -/
def Collected.Holds (c : Collected) (out : Bytes) : Prop :=
  c.chunks.flatten = out ∧ c.total = out.length

theorem holds_nil : Collected.Holds ⟨[], 0⟩ [] := ⟨rfl, rfl⟩

/-- A value's bytes are collected. -/
theorem Collected.Holds.push (h : c.Holds out) (value : Option ByteValue) :
    (c.push value).Holds (out ++ valueBytes value) := by
  obtain ⟨hchunks, htotal⟩ := h
  cases value with
  | none =>
    refine ⟨?_, ?_⟩ <;> simp [Collected.push, valueBytes, hchunks, htotal]
  | some value =>
    by_cases hlen : (toByteChunk value).length = 0
    · have hnil : toByteChunk value = [] := List.length_eq_zero_iff.1 hlen
      refine ⟨?_, ?_⟩ <;> simp [Collected.push, valueBytes, hnil, hchunks, htotal]
    · refine ⟨?_, ?_⟩ <;> simp [Collected.push, valueBytes, hlen, hchunks, htotal]

/-- The loop of `concatChunks` fills the buffer after what it has written. -/
theorem foldl_setChunk (chunks : List Bytes) (pre : Bytes) :
    (chunks.foldl (fun p chunk => (setChunk p.1 chunk p.2, p.2 + chunk.length))
      (pre ++ List.replicate chunks.flatten.length 0, pre.length)).1 = pre ++ chunks.flatten := by
  induction chunks generalizing pre with
  | nil => simp
  | cons chunk chunks ih =>
    have hset : setChunk (pre ++ List.replicate (chunk :: chunks).flatten.length 0) chunk
        pre.length = (pre ++ chunk) ++ List.replicate chunks.flatten.length 0 := by
      simp [setChunk, List.drop_append]
    rw [List.foldl_cons, hset, ← List.length_append, ih, List.flatten_cons, List.append_assoc]

/-- The collected bytes in one buffer. -/
theorem Collected.Holds.concat (h : c.Holds out) : concatChunks c.chunks c.total = out := by
  obtain ⟨hchunks, htotal⟩ := h
  have hfold := foldl_setChunk c.chunks []
  rw [hchunks, ← htotal] at hfold
  simpa [concatChunks] using hfold

end

/-! ## Decoding a text -/

section
variable {data : Bytes} {text : String}

/-- What follows a byte order mark in valid data is valid. -/
theorem valid_after_mark {rest : Bytes} (h : fromUtf8 (byteOrderMark ++ rest) = some text) :
    ∃ text', fromUtf8 rest = some text' := by
  have hbytes := fromUtf8_eq_some.1 h
  rw [← String.ofList_toList (s := text), intoBytes_ofList] at hbytes
  cases htext : text.toList with
  | nil => rw [htext] at hbytes; cases hbytes
  | cons c cs =>
    obtain ⟨b, bs, he, hstep⟩ := utf8Step_encode (cs.flatMap String.utf8EncodeChar) c
    rw [htext, List.flatMap_cons, he] at hbytes
    obtain ⟨rfl, htail⟩ := List.cons.inj hbytes
    have htail' : bs ++ cs.flatMap String.utf8EncodeChar = 0xBB :: 0xBF :: rest := htail
    have hmark : utf8Step 0xEF (0xBB :: 0xBF :: rest) = (some '\uFEFF', rest) := rfl
    rw [htail', hmark, Prod.mk.injEq] at hstep
    refine ⟨String.ofList cs, fromUtf8_eq_some.2 ?_⟩
    rw [intoBytes_ofList, ← hstep.2]

/-- A text that is valid and has no byte order mark keeps its bytes. -/
theorem intoBytes_textDecode (h : fromUtf8 data = some text) (hmark : ¬ byteOrderMark <+: data) :
    intoBytes (textDecode data) = data := by
  have hmark' : byteOrderMark.isPrefixOf data = false :=
    Bool.eq_false_iff.2 fun hp => hmark (List.isPrefixOf_iff_prefix.1 hp)
  unfold textDecode
  rw [hmark', if_neg Bool.false_ne_true, fromUtf8Lossy_of_fromUtf8 h]
  exact fromUtf8_eq_some.1 h

/-- A text that is valid and starts with a byte order mark loses it. -/
theorem intoBytes_textDecode_ne (h : fromUtf8 data = some text) (hmark : byteOrderMark <+: data) :
    intoBytes (textDecode data) ≠ data := by
  obtain ⟨rest, rfl⟩ := hmark
  obtain ⟨text', hrest⟩ := valid_after_mark h
  have hp : byteOrderMark.isPrefixOf (byteOrderMark ++ rest) = true :=
    List.isPrefixOf_iff_prefix.2 (List.prefix_append _ _)
  unfold textDecode
  rw [hp, if_pos rfl, List.drop_left, fromUtf8Lossy_of_fromUtf8 hrest, fromUtf8_eq_some.1 hrest]
  intro he
  have hlen := congrArg List.length he
  simp [byteOrderMark] at hlen
  omega

variable {e : StreamMessage}

/-- The message of an element that is what it declares, with a text that is kept, carries it. -/
theorem carries_elementMessage (hk : Kept e) (hx : Exact e) :
    Carries (elementMessage e.kind e.data) e := by
  cases hkind : e.kind with
  | binary => exact ⟨hkind, rfl⟩
  | string =>
    obtain ⟨text, htext⟩ := Option.isSome_iff_exists.1 (hk.text hkind)
    exact ⟨hkind, intoBytes_textDecode htext (hx hkind).2⟩

/-- The message of any other element does not carry it. -/
theorem exact_of_carries (hk : Kept e) (hc : Carries (elementMessage e.kind e.data) e) :
    Exact e := by
  intro hkind
  obtain ⟨text, htext⟩ := Option.isSome_iff_exists.1 (hk.text hkind)
  rw [hkind] at hc
  exact ⟨hk.text hkind, fun hmark => intoBytes_textDecode_ne htext hmark hc.2⟩

end

/-! ## The calls of `send` -/

namespace Outbound

variable {s s' : Outbound} {a : SendAct} {k : Nat} {c : Send}

/-- What a call does when it goes on: the channel takes its message; or the call fails; or it awaits
the next thing. -/
theorem resume_cases {answer : Except String Unit} (h : s.resume k c answer = some s') :
    c.result = none ∧ ∃ stage, s'.sends = s.sends.set k { c with stage } ∧
      ((c.stage = .waitForDrain true ∧ answer = .ok () ∧ stage = .done (.ok ()) ∧
          s'.taken = s.taken ++ [c.message]) ∨
        (c.fails answer = true ∧ (∃ e, stage = .done (.error e)) ∧ s'.taken = s.taken) ∨
        (c.fails answer = false ∧ c.stage ≠ .waitForDrain true ∧ (∃ r, stage = .waitForDrain r) ∧
          s'.taken = s.taken)) := by
  unfold resume at h
  split at h
  · next e hstage =>
    cases h
    exact ⟨by simp only [Send.result, hstage], _, rfl,
      .inr (.inl ⟨by simp only [Send.fails, hstage], ⟨e, rfl⟩, rfl⟩)⟩
  · next hstage =>
    cases h
    refine ⟨by simp only [Send.result, hstage], ?_⟩
    have hnot : c.fails answer = false ∧ c.stage ≠ .waitForDrain true := by
      simp [Send.fails, hstage]
    unfold waitForDrain
    split
    · exact ⟨_, rfl, .inr (.inr ⟨hnot.1, hnot.2, ⟨true, rfl⟩, rfl⟩)⟩
    · exact ⟨_, rfl, .inr (.inr ⟨hnot.1, hnot.2, ⟨false, rfl⟩, rfl⟩)⟩
  · next hstage =>
    cases h
    refine ⟨by simp only [Send.result, hstage], ?_⟩
    cases answer with
    | ok u => exact ⟨_, rfl, .inl ⟨hstage, rfl, rfl, rfl⟩⟩
    | error reason =>
      exact ⟨_, rfl, .inr (.inl ⟨by simp only [Send.fails, hstage], ⟨.closed, rfl⟩, rfl⟩)⟩
  · cases h

/-- What a step does to a call: the channel takes its message; or the call fails; or it is settled
as before, and the channel takes nothing of it. -/
theorem step_call (h : s.step a = some s') (hk : s.sends[k]? = some c) :
    ∃ c', s'.sends[k]? = some c' ∧ c'.message = c.message ∧
      ((a = .resume k (.ok ()) ∧ s.Hands k ∧ c.fails (.ok ()) = false ∧ c.result = none ∧
          c'.result = some (.ok ()) ∧ s'.taken = s.taken ++ [c.message]) ∨
        (∃ answer e, a = .resume k answer ∧ c.fails answer = true ∧ c.result = none ∧
          c'.result = some (.error e) ∧ s'.taken = s.taken) ∨
        (c'.result = c.result ∧ ∀ answer, a = .resume k answer →
          c.fails answer = false ∧ ¬ s.Hands k ∧ s'.taken = s.taken)) := by
  have hlt : k < s.sends.length := (List.getElem?_eq_some_iff.1 hk).1
  cases a with
  | send message =>
    cases h
    exact ⟨c, (List.getElem?_append_left hlt).trans hk, rfl, .inr (.inr ⟨rfl, nofun⟩)⟩
  | readyState state => cases h; exact ⟨c, hk, rfl, .inr (.inr ⟨rfl, nofun⟩)⟩
  | bufferedAmount amount => cases h; exact ⟨c, hk, rfl, .inr (.inr ⟨rfl, nofun⟩)⟩
  | event event =>
    cases h
    obtain ⟨hmessage, hresult⟩ := onEvent_result event c
    refine ⟨c.onEvent event, ?_, hmessage, .inr (.inr ⟨hresult, nofun⟩)⟩
    rw [List.getElem?_map, hk]
    rfl
  | resume k' answer =>
    obtain ⟨c₀, hc₀, hr⟩ := Option.bind_eq_some_iff.1 h
    obtain ⟨hnone, stage, hsends, hcase⟩ := resume_cases hr
    by_cases hkk : k' = k
    · subst hkk
      obtain rfl : c = c₀ := Option.some.inj (hk.symm.trans hc₀)
      refine ⟨{ c with stage }, by rw [hsends, List.getElem?_set_self hlt], rfl, ?_⟩
      rcases hcase with ⟨hstage, rfl, rfl, htaken⟩ | ⟨hfails, ⟨e, rfl⟩, htaken⟩ |
          ⟨hfails, hstage, ⟨r, rfl⟩, htaken⟩
      · refine .inl ⟨rfl, ⟨c, hk, hstage⟩, ?_, hnone, rfl, htaken⟩
        simp only [Send.fails, hstage]
      · exact .inr (.inl ⟨answer, e, rfl, hfails, hnone, rfl, htaken⟩)
      · refine .inr (.inr ⟨hnone.symm, ?_⟩)
        rintro answer' ⟨⟩
        refine ⟨hfails, ?_, htaken⟩
        rintro ⟨c₁, hc₁, hdrain⟩
        obtain rfl : c = c₁ := Option.some.inj (hk.symm.trans hc₁)
        exact hstage hdrain
    · refine ⟨c, by rw [hsends, List.getElem?_set_ne hkk, hk], rfl, .inr (.inr ⟨rfl, ?_⟩)⟩
      exact fun _ ha => absurd (SendAct.resume.inj ha).1 hkk

end Outbound

/-! ## The invariant -/

namespace Streaming

/-- Where a call at a stage stands among the elements. -/
def Stands (items : List Item) (s : Streaming) : StreamStage → Prop
  | .iterating =>
    s.failed = none ∧ s.batch = [] ∧ s.taken.length = s.handed.length ∧ s.sent = s.handed.length
  | .collecting c =>
    s.failed = none ∧ s.sent = s.handed.length ∧
      ∃ pre e out, s.taken = pre ++ [e] ∧ pre.length = s.handed.length ∧ c.Holds out ∧
        out ++ s.payload = e.message.data
  | .sending k =>
    ∃ pre e c, s.taken = pre ++ [e] ∧ pre.length = s.sent ∧
      e.message.data.length = e.message.length ∧ s.outbound.sends[k]? = some c ∧
      c.message = elementMessage e.message.kind e.message.data ∧
      (c.result = some (.ok ()) ∧ s.failed = none ∧ s.handed.length = s.sent + 1 ∨
        c.result = none ∧ s.failed = none ∧ s.handed.length = s.sent ∨
        (∃ error, c.result = some (.error error)) ∧ s.failed = some s.sent ∧
          s.handed.length = s.sent)
  | .done (.ok ()) => s.failed = none ∧ s.handed.length = items.length
  | .done (.error error) =>
    error.sent = s.handed.length ∧ ∃ e, items[s.handed.length]? = some e ∧
      (s.failed = some s.handed.length ∨ s.failed = none ∧ ¬ Kept e.message)

/-- What holds as long as the channel takes only texts that a `TextDecoder` keeps. -/
structure Inv (items : List Item) (s : Streaming) : Prop where
  whole : s.taken ++ s.batch ++ s.unread = items
  sends : Matches (items.map (·.message)) s.handed
  stands : s.Stands items s.stage

section
variable {items : List Item} {s s' : Streaming} {a : StreamingAct}

theorem inv_start {outbound : Outbound} {source : Source} :
    (start outbound source items).Inv items :=
  ⟨rfl, Contract.matches_nil, rfl, rfl, rfl, rfl⟩

/-- The element that the call has taken last. -/
theorem Inv.element (hi : s.Inv items) {pre : List Item} {e : Item} (ht : s.taken = pre ++ [e]) :
    items[pre.length]? = some e := by
  rw [← hi.whole, ht]
  simp

/-- What the call has sent, and what its promise is settled with. -/
theorem Inv.faithful (hi : s.Inv items) :
    Faithful (items.map (·.message)) s.handed s.reported s.result := by
  have hs := hi.stands
  unfold reported
  cases hstage : s.stage with
  | iterating | collecting | sending =>
    have hresult : s.result = none := by simp only [result, hstage]
    rw [hresult]
    exact Contract.faithful_pending hi.sends
  | done r =>
    rw [hstage] at hs
    have hresult : s.result = some r := by simp only [result, hstage]
    rw [hresult]
    cases r with
    | ok u =>
      obtain ⟨hfailed, hlen⟩ := hs
      rw [hfailed]
      exact Contract.faithful_ok hi.sends (by rw [hlen, List.length_map])
    | error error =>
      obtain ⟨hsent, e, he, hcause⟩ := hs
      obtain ⟨error, sent⟩ := error
      obtain rfl : sent = s.handed.length := hsent
      refine Contract.faithful_error error hi.sends ?_ hcause
      rw [List.getElem?_map, he]
      rfl

/-- The loop goes on to the next element. -/
theorem inv_next (hwhole : s.taken ++ s.batch ++ s.unread = items)
    (hsends : Matches (items.map (·.message)) s.handed) (hfailed : s.failed = none)
    (htaken : s.taken.length = s.handed.length) (hsent : s.sent = s.handed.length) :
    s.next.Inv items := by
  unfold next
  cases hbatch : s.batch with
  | nil =>
    rw [hbatch] at hwhole
    exact ⟨by simpa using hwhole, hsends, hfailed, rfl, htaken, hsent⟩
  | cons e rest =>
    rw [hbatch] at hwhole
    refine ⟨?_, hsends, hfailed, hsent, s.taken, e, [], rfl, htaken, holds_nil, rfl⟩
    simpa using hwhole

/-- A read of the guest's stream resolves. -/
theorem Inv.iterated (hi : s.Inv items) {value : ItemsValue} (hstage : s.stage = .iterating)
    (hoffers : s.offersItems value) : (s.iterated value).Inv items := by
  have hs := hi.stands
  rw [hstage] at hs
  obtain ⟨hfailed, hbatch, htaken, hsent⟩ := hs
  have hwhole : s.taken ++ s.unread = items := by simpa [hbatch] using hi.whole
  cases value with
  | element e =>
    refine inv_next (s := { s with unread := s.unread.tail, batch := [e] }) ?_ hi.sends hfailed
      htaken hsent
    have hunread : s.unread = e :: s.unread.tail := (List.cons_head?_tail hoffers).symm
    rw [← hwhole, hunread]
    simp
  | array es =>
    refine inv_next (s := { s with unread := s.unread.drop es.length, batch := es }) ?_ hi.sends
      hfailed htaken hsent
    have hunread : es ++ s.unread.drop es.length = s.unread :=
      List.prefix_iff_eq_append.1 hoffers.2
    rw [List.append_assoc, hunread]
    exact hwhole
  | done =>
    have hunread : s.unread = [] := hoffers
    refine ⟨hi.whole, hi.sends, hfailed, htaken.symm.trans ?_⟩
    rw [← hwhole, hunread, List.append_nil]

/-- A read of a payload is collected. -/
theorem holds_collect {c : Collected} {out : Bytes} {r : Reader} {value : Option ByteValue}
    {done : Bool} (h : c.Holds out) (hoffers : s.offersBytes value done r) :
    ∃ out', (r.collect c value done).Holds out' ∧
      out' ++ s.payload.drop (valueBytes value).length = out ++ s.payload ∧
      (done = true → out' = out ++ s.payload) := by
  have hpush : valueBytes value <+: s.payload →
      out ++ valueBytes value ++ s.payload.drop (valueBytes value).length = out ++ s.payload := by
    intro hv
    rw [List.append_assoc, List.prefix_iff_eq_append.1 hv]
  cases r with
  | batches =>
    obtain ⟨hv, hlast⟩ := hoffers
    exact ⟨_, h.push value, hpush hv, fun hdone => by rw [hlast hdone]⟩
  | readable | iterable =>
    obtain ⟨hlast, hv⟩ := hoffers
    cases done with
    | true =>
      have hpayload := hlast rfl
      refine ⟨out, h, ?_, fun _ => ?_⟩ <;> simp [hpayload]
    | false => exact ⟨_, h.push value, hpush (hv rfl), nofun⟩

/-- A read of a payload resolves. -/
theorem Inv.collected (hi : s.Inv items) {c : Collected} {e : Item} {value : Option ByteValue}
    {done : Bool} (hstage : s.stage = .collecting c) (he : s.taken.getLast? = some e)
    (hoffers : s.offersBytes value done e.reader) (h : s.collected e c value done = some s') :
    s'.Inv items := by
  have hs := hi.stands
  rw [hstage] at hs
  obtain ⟨hfailed, hsent, pre, e', out, htaken, hpre, hholds, hdata⟩ := hs
  rw [htaken, List.getLast?_concat] at he
  cases he
  obtain ⟨out', hholds', hrest, hlast⟩ := holds_collect hholds hoffers
  unfold Streaming.collected at h
  cases done with
  | false =>
    cases h
    exact ⟨hi.whole, hi.sends, hfailed, hsent, pre, e, out', htaken, hpre, hholds',
      hrest.trans hdata⟩
  | true =>
    have hbytes : out' = e.message.data := (hlast rfl).trans hdata
    simp only [if_true, hholds'.concat, hbytes, sendElement] at h
    split at h
    · next hlen =>
      cases h
      exact ⟨hi.whole, hi.sends, hsent, e, hpre ▸ hi.element htaken,
        .inr ⟨hfailed, fun hk => hlen hk.total⟩⟩
    · next hlen =>
      cases h
      exact ⟨hi.whole, hi.sends, pre, e,
        ⟨elementMessage e.message.kind e.message.data, .waitOpen s.outbound.waitOpen⟩, htaken,
        hpre.trans hsent.symm, not_not.1 hlen, List.getElem?_concat_length, rfl,
        .inr (.inl ⟨rfl, hfailed, hsent.symm⟩)⟩

/-- The awaited `send` is settled. -/
theorem Inv.settled (hi : s.Inv items) {k : Nat} {c : Send} {r : Except Error Unit}
    (hstage : s.stage = .sending k) (hc : s.outbound.sends[k]? = some c)
    (hr : c.result = some r) : (s.settled r).Inv items := by
  have hs := hi.stands
  rw [hstage] at hs
  obtain ⟨pre, e, c', htaken, hpre, hlen, hc', hmessage, hcount⟩ := hs
  obtain rfl : c = c' := Option.some.inj (hc.symm.trans hc')
  rw [hr] at hcount
  cases r with
  | ok u =>
    obtain ⟨-, hfailed, hhanded⟩ | ⟨hnone, -⟩ | ⟨⟨error, herror⟩, -⟩ := hcount
    · refine inv_next (s := { s with sent := s.sent + 1 }) hi.whole hi.sends hfailed ?_ hhanded.symm
      rw [htaken, List.length_append, hpre, hhanded, List.length_singleton]
    · cases hnone
    · cases herror
  | error error =>
    obtain ⟨hok, -⟩ | ⟨hnone, -⟩ | ⟨-, hfailed, hhanded⟩ := hcount
    · cases hok
    · cases hnone
    · have helem : items[s.handed.length]? = some e := by
        rw [hhanded, ← hpre]
        exact hi.element htaken
      exact ⟨hi.whole, hi.sends, hhanded.symm, e, helem, .inl (hhanded ▸ hfailed)⟩

/-- The channel takes nothing from the call. -/
theorem accepted_nil {o : Outbound} {b : SendAct}
    (h : ∀ k answer, s.stage = .sending k → b = .resume k answer → o.taken = s.outbound.taken) :
    s.accepted o b = [] := by
  cases b with
  | resume k answer =>
    cases hstage : s.stage with
    | sending k' =>
      simp only [accepted, hstage]
      split
      · next he => rw [h k answer (he ▸ hstage) rfl, List.drop_length]
      · rfl
    | iterating | collecting | done => simp only [accepted, hstage]
  | send | readyState | bufferedAmount | event => rfl

/-- The channel takes the call's message. -/
theorem accepted_message {k : Nat} {o : Outbound} {answer : Except String Unit} {m : Message}
    (hstage : s.stage = .sending k) (h : o.taken = s.outbound.taken ++ [m]) :
    s.accepted o (.resume k answer) = [m] := by
  simp [accepted, hstage, h]

/-- The call fails only at its own `send`. -/
theorem sendFails_eq {b : SendAct} {k : Nat} {c : Send} (hstage : s.stage = .sending k)
    (hc : s.outbound.sends[k]? = some c) :
    s.sendFails b = true ↔ ∃ answer, b = .resume k answer ∧ c.fails answer = true := by
  cases b with
  | resume k' answer =>
    simp only [sendFails, hstage, Bool.and_eq_true, decide_eq_true_eq]
    constructor
    · rintro ⟨rfl, hfails⟩
      rw [hc] at hfails
      exact ⟨answer, rfl, hfails⟩
    · rintro ⟨_, ⟨⟩, hfails⟩
      rw [hc]
      exact ⟨rfl, hfails⟩
  | send | readyState | bufferedAmount | event => simp [sendFails]

/-- A call that awaits no `send` does not fail. -/
theorem sendFails_idle {b : SendAct} (h : ∀ k, s.stage ≠ .sending k) : s.sendFails b = false := by
  cases b with
  | resume k answer =>
    cases hstage : s.stage with
    | sending k' => exact absurd hstage (h k')
    | iterating | collecting | done => simp only [sendFails, hstage]
  | send | readyState | bufferedAmount | event => rfl

/-- An element of its declared length whose text is kept is what it declares. -/
theorem kept_of_exact {e : StreamMessage} (hlen : e.data.length = e.length) (hx : Exact e) :
    Kept e :=
  ⟨hlen, fun hkind => (hx hkind).1⟩

/-- The channel takes a step. -/
theorem Inv.channel (hi : s.Inv items) {o : Outbound} {b : SendAct}
    (hgood : s.HandsExact (.channel b)) (h : s.outbound.step b = some o) :
    Inv items
      { s with
        outbound := o
        handed := s.handed ++ s.accepted o b
        failed := if s.sendFails b then some (s.taken.length - 1) else s.failed } := by
  have hs := hi.stands
  have hidle : (∀ k, s.stage ≠ .sending k) → s.accepted o b = [] ∧ s.sendFails b = false :=
    fun hne => ⟨accepted_nil fun k _ hk => absurd hk (hne k), sendFails_idle hne⟩
  cases hstage : s.stage with
  | iterating | collecting =>
    obtain ⟨haccepted, hfails⟩ := hidle (by simp [hstage])
    rw [haccepted, hfails, List.append_nil, if_neg Bool.false_ne_true]
    simp only [hstage] at hs ⊢
    exact ⟨hi.whole, hi.sends, hs⟩
  | done r =>
    obtain ⟨haccepted, hfails⟩ := hidle (by simp [hstage])
    rw [haccepted, hfails, List.append_nil, if_neg Bool.false_ne_true]
    simp only [hstage] at hs ⊢
    cases r <;> exact ⟨hi.whole, hi.sends, hs⟩
  | sending k =>
    rw [hstage] at hs
    obtain ⟨pre, e, c, htaken, hpre, hlen, hc, hmessage, hcount⟩ := hs
    obtain ⟨c', hc', hm', hcase⟩ := Outbound.step_call h hc
    have hfails := sendFails_eq (b := b) hstage hc
    -- a call that the channel's step settles was not settled before
    have hbefore : c.result = none → s.failed = none ∧ s.handed.length = s.sent := by
      intro hnone
      rw [hnone] at hcount
      obtain ⟨hok, -⟩ | ⟨-, hcount⟩ | ⟨⟨error, herror⟩, -⟩ := hcount
      · cases hok
      · exact hcount
      · cases herror
    rcases hcase with ⟨rfl, hhands, hnot, hnone, hok, hto⟩ | ⟨answer, error, rfl, hfail, hnone,
        herror, hto⟩ | ⟨hsame, hother⟩
    · have hexact : Exact e.message :=
        hgood hstage hhands e (by rw [htaken, List.getLast?_concat])
      have hkept : Kept e.message := kept_of_exact hlen hexact
      obtain ⟨hfailed, hcount⟩ := hbefore hnone
      have helem : (items.map (·.message))[s.handed.length]? = some e.message := by
        rw [List.getElem?_map, hcount, ← hpre, hi.element htaken]
        rfl
      have hno : s.sendFails (.resume k (.ok ())) = false := by
        refine Bool.eq_false_iff.2 fun hf => ?_
        obtain ⟨_, ⟨⟩, hf⟩ := hfails.1 hf
        rw [hnot] at hf
        cases hf
      rw [accepted_message hstage hto, hmessage, hno, if_neg Bool.false_ne_true]
      refine ⟨hi.whole,
        Contract.matches_append hi.sends helem (carries_elementMessage hkept hexact) hkept,
        pre, e, c', htaken, hpre, hlen, hc', hm'.trans hmessage, .inl ⟨hok, hfailed, ?_⟩⟩
      rw [List.length_append, hcount, List.length_singleton]
    · have hnothing : s.accepted o (.resume k answer) = [] := accepted_nil fun _ _ _ _ => hto
      obtain ⟨-, hcount⟩ := hbefore hnone
      rw [hnothing, List.append_nil, if_pos (hfails.2 ⟨answer, rfl, hfail⟩)]
      refine ⟨hi.whole, hi.sends, pre, e, c', htaken, hpre, hlen, hc', hm'.trans hmessage,
        .inr (.inr ⟨⟨error, herror⟩, ?_, hcount⟩)⟩
      rw [htaken, List.length_append, hpre]
      rfl
    · have hnothing : s.accepted o b = [] := accepted_nil fun k' answer hk hb => by
        obtain rfl : k = k' := StreamStage.sending.inj (hstage.symm.trans hk)
        exact (hother answer hb).2.2
      have hno : ¬ s.sendFails b = true := by
        rintro hf
        obtain ⟨answer, hb, hf⟩ := hfails.1 hf
        rw [(hother answer hb).1] at hf
        cases hf
      rw [hnothing, List.append_nil, if_neg hno]
      refine ⟨hi.whole, hi.sends, pre, e, c', htaken, hpre, hlen, hc', hm'.trans hmessage, ?_⟩
      rw [hsame]
      exact hcount

/-- A step in which the channel takes no text but what a `TextDecoder` keeps, keeps the
invariant. -/
theorem Inv.step (hi : s.Inv items) (hgood : s.HandsExact a) (h : Streaming.step s a = some s') :
    s'.Inv items := by
  cases a with
  | items value =>
    simp only [Streaming.step] at h
    split at h
    · next hstage =>
      split at h
      · next hoffers => cases h; exact hi.iterated hstage hoffers
      · cases h
    · cases h
  | read value done =>
    simp only [Streaming.step] at h
    split at h
    · next c e hstage he =>
      split at h
      · next hoffers => exact hi.collected hstage he hoffers h
      · cases h
    · cases h
  | channel b =>
    obtain ⟨o, ho, rfl⟩ := Option.map_eq_some_iff.1 h
    exact hi.channel hgood ho
  | settle =>
    simp only [Streaming.step] at h
    split at h
    · next k hstage =>
      obtain ⟨r, hr, rfl⟩ := Option.map_eq_some_iff.1 h
      obtain ⟨c, hc, hr⟩ := Option.bind_eq_some_iff.1 hr
      exact hi.settled hstage hc hr
    · cases h

/-- A step in which the channel takes another text ends in a state against the claim. -/
theorem Inv.not_sound (hi : s.Inv items) (hbad : ¬ s.HandsExact a)
    (h : Streaming.step s a = some s') : ¬ s'.Sound items := by
  intro hsound
  apply hbad
  cases a with
  | channel b =>
    cases b with
    | resume k answer =>
      cases answer with
      | ok u =>
        intro hstage hhands e he
        obtain ⟨o, ho, rfl⟩ := Option.map_eq_some_iff.1 h
        have hs := hi.stands
        rw [hstage] at hs
        obtain ⟨pre, e', c, htaken, hpre, -, hc, hmessage, hcount⟩ := hs
        rw [htaken, List.getLast?_concat] at he
        cases he
        obtain ⟨c', -, -, hcase⟩ := Outbound.step_call ho hc
        obtain ⟨c₁, hc₁, hdrain⟩ := hhands
        obtain rfl : c = c₁ := Option.some.inj (hc.symm.trans hc₁)
        rcases hcase with ⟨-, -, -, hnone, -, hto⟩ | ⟨answer, -, ⟨⟩, hfail, -⟩ | ⟨-, hother⟩
        · have hcount : s.handed.length = s.sent := by
            rw [hnone] at hcount
            obtain ⟨hok, -⟩ | ⟨-, -, hcount⟩ | ⟨⟨error, herror⟩, -⟩ := hcount
            · cases hok
            · exact hcount
            · cases herror
          have hsends := hsound.faithful.sends
          simp only [accepted_message hstage hto, hmessage] at hsends
          obtain ⟨x, hx, hcarries, hkept⟩ := hsends s.handed.length _ List.getElem?_concat_length
          rw [List.getElem?_map, hcount, ← hpre, hi.element htaken] at hx
          cases hx
          exact exact_of_carries hkept hcarries
        · simp only [Send.fails, hdrain] at hfail
          cases hfail
        · exact absurd ⟨c, hc, hdrain⟩ (hother _ rfl).2.1
      | error => trivial
    | send | readyState | bufferedAmount | event => trivial
  | items | read | settle => trivial

/-- A failed `send` leaves a call that is not settled at its await of it. -/
theorem Inv.failing (hi : s.Inv items) {n : Nat} (hf : s.failed = some n) (hr : s.result = none) :
    ∃ k c e, s.stage = .sending k ∧ s.outbound.sends[k]? = some c ∧ c.result = some (.error e) ∧
      n = s.sent := by
  have hs := hi.stands
  cases hstage : s.stage with
  | iterating | collecting =>
    rw [hstage] at hs
    cases hf.symm.trans hs.1
  | sending k =>
    rw [hstage] at hs
    obtain ⟨-, -, c, -, -, -, hc, -, hcount⟩ := hs
    obtain ⟨-, hnone, -⟩ | ⟨-, hnone, -⟩ | ⟨⟨e, he⟩, hfailed, -⟩ := hcount
    · cases hf.symm.trans hnone
    · cases hf.symm.trans hnone
    · exact ⟨k, c, e, rfl, hc, he, Option.some.inj (hf.symm.trans hfailed)⟩
  | done r =>
    simp only [result, hstage] at hr
    cases hr

/-- The invariant gives the end of the call. -/
theorem Inv.ends (hi : s.Inv items) : s.Ends items where
  takes e rest hstage hunread := by
    have hoffers : s.offersItems (.element e) := by rw [offersItems, hunread]; rfl
    simp only [Streaming.step, hstage, if_pos hoffers]
    exact ⟨_, _, rfl, rfl, rfl⟩
  fulfilled k c hstage hc hresult := by
    refine ⟨s.settled (.ok ()), ?_, ?_⟩
    · simp only [Streaming.step, hstage, hc, Option.bind_some, hresult, Option.map_some]
    · simp only [Streaming.settled, Streaming.next]
      cases s.batch with
      | nil => exact ⟨rfl, .inl rfl⟩
      | cons e rest => exact ⟨rfl, .inr ⟨_, rfl⟩⟩
  finishes hstage hunread := by
    have hoffers : s.offersItems .done := hunread
    simp only [Streaming.step, hstage, if_pos hoffers]
    exact ⟨_, rfl, rfl⟩
  failing k reason hstage hhands := by
    have hs := hi.stands
    rw [hstage] at hs
    obtain ⟨pre, e, c, htaken, hpre, -, hc, -, hcount⟩ := hs
    obtain ⟨c₁, hc₁, hdrain⟩ := hhands
    obtain rfl : c = c₁ := Option.some.inj (hc.symm.trans hc₁)
    obtain ⟨o, -, ho, -⟩ := Outbound.step_refused ⟨c, hc, hdrain⟩ reason
    have hfails : s.sendFails (.resume k (.error reason)) = true :=
      (sendFails_eq hstage hc).2 ⟨_, rfl, by simp only [Send.fails, hdrain]⟩
    refine ⟨_, Option.map_eq_some_iff.2 ⟨o, ho, rfl⟩, ?_⟩
    have hnone : c.result = none := by simp only [Send.result, hdrain]
    rw [hnone] at hcount
    obtain ⟨hok, -⟩ | ⟨-, -, hcount⟩ | ⟨⟨error, herror⟩, -⟩ := hcount
    · cases hok
    · simp only [hfails, if_true, htaken, List.length_append, List.length_singleton,
        Nat.add_sub_cancel, hpre, hcount]
    · cases herror
  stopped n hf hr := by
    obtain ⟨k, c, e, hstage, hc, hce, rfl⟩ := hi.failing hf hr
    refine ⟨s.settled (.error e), e, ?_, rfl⟩
    simp only [Streaming.step, hstage, hc, Option.bind_some, hce, Option.map_some]
  collected c e value hstage he hoffers := by
    have hs := hi.stands
    rw [hstage] at hs
    obtain ⟨-, hsent, pre, e', out, htaken, hpre, hholds, hdata⟩ := hs
    have he' := hi.element htaken
    rw [hpre, he] at he'
    cases he'
    have hlast : s.taken.getLast? = some e := by rw [htaken, List.getLast?_concat]
    obtain ⟨out', hholds', -, hbytes⟩ := holds_collect hholds hoffers
    have hbytes : out' = e.message.data := (hbytes rfl).trans hdata
    simp only [Streaming.step, hstage, hlast, if_pos hoffers, Streaming.collected, if_true,
      hholds'.concat, hbytes, sendElement]
    by_cases hlen : e.message.data.length = e.message.length
    · rw [if_neg (not_not_intro hlen)]
      exact ⟨_, rfl, fun _ => ⟨_, _, rfl, List.getElem?_concat_length, rfl⟩,
        fun hne => absurd hlen hne⟩
    · rw [if_pos hlen]
      refine ⟨_, rfl, fun heq => absurd heq hlen, fun _ => ?_⟩
      rw [← hsent]
      exact ⟨_, rfl⟩

/-- The invariant is more than the claim of a state. -/
theorem Inv.sound (hi : s.Inv items) : s.Sound items := ⟨hi.faithful, hi.ends⟩

/-- In every run of a channel beside a `sendViaStream`, whatever the form of the guest's streams:
the call sends exactly the declared messages in every state reached exactly when the channel takes
no text from it that is not UTF-8 or starts with a byte order mark. -/
theorem jco_sends_declared_iff {outbound : Outbound} {source : Source} {as : List StreamingAct}
    (h : Runs.run Streaming.step (start outbound source items) as = some s) :
    Runs.Along Streaming.step (Sound items) (start outbound source items) as ↔
      Runs.Meets Streaming.step HandsExact (start outbound source items) as :=
  Runs.along_iff_meets (fun _ hi => hi.sound) (fun _ _ _ hi hgood h => hi.step hgood h)
    (fun _ _ _ hi hbad h => hi.not_sound hbad h) inv_start h

end

/-- A text that starts with a byte order mark is sent without it. -/
theorem byte_order_mark_dropped :
    ∃ s, Runs.run Streaming.step
        (start (.new .open) .iterable [⟨⟨.string, 4, [0xEF, 0xBB, 0xBF, 0x61]⟩, .batches⟩])
        [.items (.element ⟨⟨.string, 4, [0xEF, 0xBB, 0xBF, 0x61]⟩, .batches⟩),
          .read (some (.typed [0xEF, 0xBB, 0xBF, 0x61])) true, .channel (.resume 0 (.ok ())),
          .channel (.resume 0 (.ok ())), .settle, .items .done] = some s ∧
      s.handed = [.string "a"] ∧ s.result = some (.ok ()) ∧
      ¬ s.Sound [⟨⟨.string, 4, [0xEF, 0xBB, 0xBF, 0x61]⟩, .batches⟩] := by
  refine ⟨_, rfl, rfl, rfl, fun hsound => ?_⟩
  obtain ⟨x, hx, hcarries, -⟩ := hsound.faithful.sends 0 (.string "a") rfl
  cases hx
  have hbytes := hcarries.2
  rw [intoBytes_eq] at hbytes
  exact absurd hbytes (by decide)

/-- A text is read one byte at a time and sent. -/
theorem jco_sends_declared_of_text :
    ∃ s, Runs.run Streaming.step
        (start (.new .open) .readable [⟨⟨.string, 2, [104, 105]⟩, .iterable⟩])
        [.items (.element ⟨⟨.string, 2, [104, 105]⟩, .iterable⟩), .read (some (.number 104)) false,
          .read (some (.number 105)) false, .read none true, .channel (.resume 0 (.ok ())),
          .channel (.resume 0 (.ok ())), .settle, .items .done] = some s ∧
      s.result = some (.ok ()) ∧ s.Sound [⟨⟨.string, 2, [104, 105]⟩, .iterable⟩] := by
  have hrun : ∃ s, Runs.run Streaming.step
        (start (.new .open) .readable [⟨⟨.string, 2, [104, 105]⟩, .iterable⟩])
        [.items (.element ⟨⟨.string, 2, [104, 105]⟩, .iterable⟩), .read (some (.number 104)) false,
          .read (some (.number 105)) false, .read none true, .channel (.resume 0 (.ok ())),
          .channel (.resume 0 (.ok ())), .settle, .items .done] = some s ∧
      s.result = some (.ok ()) ∧
      Runs.Meets Streaming.step HandsExact
        (start (.new .open) .readable [⟨⟨.string, 2, [104, 105]⟩, .iterable⟩])
        [.items (.element ⟨⟨.string, 2, [104, 105]⟩, .iterable⟩), .read (some (.number 104)) false,
          .read (some (.number 105)) false, .read none true, .channel (.resume 0 (.ok ())),
          .channel (.resume 0 (.ok ())), .settle, .items .done] := by
    have hexact : Exact ⟨.string, 2, [104, 105]⟩ := fun _ => ⟨by decide, by decide⟩
    refine ⟨_, rfl, rfl, trivial, ?_⟩
    rintro _ ⟨⟩
    refine ⟨trivial, ?_⟩
    rintro _ ⟨⟩
    refine ⟨trivial, ?_⟩
    rintro _ ⟨⟩
    refine ⟨trivial, ?_⟩
    rintro _ ⟨⟩
    refine ⟨fun _ _ e he => by cases he; exact hexact, ?_⟩
    rintro _ ⟨⟩
    refine ⟨fun _ _ e he => by cases he; exact hexact, ?_⟩
    exact fun _ _ => ⟨trivial, fun _ _ => ⟨trivial, fun _ _ => trivial⟩⟩
  obtain ⟨s, hs, hresult, hmeets⟩ := hrun
  exact ⟨s, hs, hresult, (jco_sends_declared_iff hs).2 hmeets _ (List.prefix_refl _) _ hs⟩

end Streaming

end WebrtcDatachannels.Jco
