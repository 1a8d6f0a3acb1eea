import Mathlib
import WebrtcDatachannels.Wit
import WebrtcDatachannels.Lib.Handoff
import WebrtcDatachannels.Lib.Runs

/-!
# The inbound queue of the browser-first host

`jco-impl/webrtc.js`. `incomingQueue` is a closure over four variables that three event handlers,
`next()` and `rejectWaiters()` share; JavaScript runs each of them to its end. A promise that
`next()` returns is an entry of `promises`, by its number, with who asked for it and how it was
settled. The queue hands its messages to the waiting promises as `Handoff.Queue` does (`Refines`).
-/

namespace WebrtcDatachannels.Jco

/-! ## Numbers and sizes -/

/-- A JavaScript Number. -/
inductive Number where
  | nan
  | finite (value : Rat)
  | infinite (negative : Bool)

namespace Number

/-- `number > 0`. -/
def positive : Number → Bool
  | nan => false
  | finite value => 0 < value
  | infinite negative => !negative

/-- `n > number`. -/
def exceededBy (n : Nat) : Number → Bool
  | nan => false
  | finite value => value < n
  | infinite negative => negative

end Number

/-- `DEFAULT_MAX_INBOUND_BUFFERED`. -/
def defaultMaxInboundBuffered : Nat := 8 * 1024 * 1024

/-- The configured inbound buffer bound; `configured` is the setting as a Number. Source:
`maxInboundBuffered`. -/
def maxInboundBuffered (configured : Number) : Number :=
  if configured.positive then configured else .finite defaultMaxInboundBuffered

/-- The UTF-16 code units of a character. -/
def utf16Size (c : Char) : Nat := if c.val ≤ 0xFFFF then 1 else 2

/-- `text.length`, in UTF-16 code units. -/
def stringLength (text : String) : Nat := (text.toList.map utf16Size).sum

/-- The `data` of a `message` event. -/
inductive Data where
  | text (value : String)
  | buffer (bytes : Bytes)

/-- `typeof data === "string" ? data.length : data.byteLength`. -/
def Data.size : Data → Nat
  | text value => stringLength value
  | buffer bytes => bytes.length

/-- The message of an event's data. -/
def Data.message : Data → Message
  | text value => .string value
  | buffer bytes => .binary bytes

/-! ## Promises -/

/-- Who called `next()`: a `receive()`, or a pull of the claimed stream. -/
inductive Consumer where
  | receive
  | stream
deriving DecidableEq

/-- A promise that `next()` returned, and how it was settled. -/
structure Promise where
  consumer : Consumer
  outcome : Option (Except Error Message)

/-- `resolve` or `reject`: a promise is settled once. -/
def Promise.settle (r : Except Error Message) (p : Promise) : Promise :=
  { p with outcome := p.outcome.or (some r) }

/-- Reject the promises `ids` one after another. -/
def rejectAll (error : Error) (ids : List Nat) (promises : List Promise) : List Promise :=
  ids.foldl (fun ps id => ps.modify id (Promise.settle (.error error))) promises

/-! ## The channel -/

/-- A `DataChannel` with the variables of its `incomingQueue`: the bound, the queued messages with
their sizes, the promises of the pending waiters, and the flags; the number of calls of
`channel.close()`; the promises of all `next()` calls, and the messages accepted, oldest first. -/
structure DataChannel where
  limit : Number
  messages : List (Message × Nat)
  waiters : List Nat
  buffered : Nat
  overflowed : Bool
  closed : Bool
  streamClaimed : Bool
  closes : Nat
  promises : List Promise
  accepted : List Message

/-- What can happen on a channel. -/
inductive Act where
  | message (data : Data)
  | close
  | error
  | receive
  | receiveViaStream
  | pull

/-- The message of a `message` event. -/
def Act.arrival? : Act → Option Message
  | .message data => some data.message
  | _ => none

/-- The messages that arrived, oldest first. -/
def arrived (as : List Act) : List Message := as.filterMap Act.arrival?

namespace DataChannel

/-- A channel as its constructor returns it. -/
def start (limit : Number) : DataChannel :=
  { limit, messages := [], waiters := [], buffered := 0, overflowed := false, closed := false,
    streamClaimed := false, closes := 0, promises := [], accepted := [] }

/-- Source: `push` in `incomingQueue`. -/
def push (s : DataChannel) (message : Message) (size : Nat) : DataChannel :=
  match s.waiters with
  | waiter :: rest =>
    { s with
      waiters := rest
      promises := s.promises.modify waiter (Promise.settle (.ok message))
      accepted := s.accepted ++ [message] }
  | [] =>
    { s with
      buffered := s.buffered + size
      messages := s.messages ++ [(message, size)]
      accepted := s.accepted ++ [message] }

/-- The bounded inbound buffer would overflow. -/
def overflows (s : DataChannel) (data : Data) : Bool :=
  s.limit.exceededBy (s.buffered + data.size) && s.waiters.isEmpty

/-- The handler of `message` events. -/
def onMessage (s : DataChannel) (data : Data) : DataChannel :=
  if s.overflowed then s
  else if s.overflows data then { s with overflowed := true, closes := s.closes + 1 }
  else s.push data.message data.size

/-- Source: `endError`. -/
def endError (s : DataChannel) : Error :=
  if s.overflowed then .receiveBufferOverflow else .closed

/-- Reject every pending waiter. Source: `rejectWaiters`. -/
def rejectWaiters (s : DataChannel) (error : Error) : DataChannel :=
  { s with waiters := [], promises := rejectAll error s.waiters s.promises }

/-- The handler of `close` and `error` events. Source: `end` in `incomingQueue`. -/
def onEnd (s : DataChannel) : DataChannel :=
  if s.closed then s else { s.rejectWaiters s.endError with closed := true }

/-- The promise that `next()` returns. -/
def returns (s : DataChannel) (consumer : Consumer) (outcome : Option (Except Error Message)) :
    DataChannel :=
  { s with promises := s.promises ++ [⟨consumer, outcome⟩] }

/-- Source: `next` in `incomingQueue`. -/
def next (s : DataChannel) (consumer : Consumer) : DataChannel :=
  match s.messages with
  | (message, size) :: rest =>
    { s with messages := rest, buffered := s.buffered - size }.returns consumer (some (.ok message))
  | [] =>
    if s.overflowed then s.returns consumer (some (.error .receiveBufferOverflow))
    else if s.closed then s.returns consumer (some (.error .closed))
    else { s with waiters := s.waiters ++ [s.promises.length] }.returns consumer none

/-- Source: `DataChannel.receive`. -/
def receive (s : DataChannel) : Except Error DataChannel :=
  if s.streamClaimed then .error .receivingViaStream else .ok (s.next .receive)

/-- Source: `DataChannel.receiveViaStream`. -/
def receiveViaStream (s : DataChannel) : Except Error DataChannel :=
  if s.streamClaimed then .error .receivingViaStream
  else .ok ({ s with streamClaimed := true }.rejectWaiters .receivingViaStream)

/-- One step. No message arrives after the first `close` or `error` event, and the stream pulls once
it is there; that it awaits a pull before the next one is not used. -/
def step (s : DataChannel) : Act → Option DataChannel
  | .message data => if s.closed then none else some (s.onMessage data)
  | .close | .error => some s.onEnd
  | .receive => some (s.receive.toOption.getD s)
  | .receiveViaStream => some (s.receiveViaStream.toOption.getD s)
  | .pull => if s.streamClaimed then some (s.next .stream) else none

end DataChannel

/-! ## Settled promises -/

@[simp] theorem Promise.settle_pending (r : Except Error Message) (consumer : Consumer) :
    Promise.settle r ⟨consumer, none⟩ = ⟨consumer, some r⟩ := rfl

@[simp] theorem Promise.settle_settled (r r' : Except Error Message) (consumer : Consumer) :
    Promise.settle r ⟨consumer, some r'⟩ = ⟨consumer, some r'⟩ := rfl

@[simp] theorem length_rejectAll (error : Error) (ids : List Nat) (ps : List Promise) :
    (rejectAll error ids ps).length = ps.length := by
  unfold rejectAll
  induction ids generalizing ps with
  | nil => rfl
  | cons id ids ih => rw [List.foldl_cons, ih, List.length_modify]

/-- A mass rejection settles the promises it names. -/
theorem getElem?_rejectAll (error : Error) (ids : List Nat) (ps : List Promise) (j : Nat) :
    (rejectAll error ids ps)[j]? =
      ps[j]?.map fun p => if j ∈ ids then p.settle (.error error) else p := by
  unfold rejectAll
  induction ids generalizing ps with
  | nil => simp
  | cons id ids ih =>
    rw [List.foldl_cons, ih, List.getElem?_modify]
    cases hp : ps[j]? with
    | none => rfl
    | some p =>
      by_cases hj : id = j
      · subst hj
        obtain ⟨consumer, outcome⟩ := p
        cases outcome <;> simp
      · have hne : ¬ j = id := fun h => hj h.symm
        simp [hj, hne]

/-! ## The queue hands messages over in order -/

/-- The channel's queue as a queue of messages that are handed to `next()` calls: a call is given a
message when its promise is resolved with it, and waits while its promise is pending. -/
structure Refines (s : DataChannel) (q : Handoff.Queue Message) : Prop where
  held : q.held = s.messages.map Prod.fst
  waiting : q.waiting = s.waiters
  issued : q.issued = s.promises.length
  given : ∀ id m, (id, m) ∈ q.given ↔
    ∃ consumer, s.promises[id]? = some ⟨consumer, some (.ok m)⟩
  pending : ∀ id, id ∈ s.waiters ↔ ∃ consumer, s.promises[id]? = some ⟨consumer, none⟩
  accepted : s.accepted = q.accepted

section
variable {s s' : DataChannel} {q : Handoff.Queue Message} {message : Message} {size : Nat}

theorem refines_start (limit : Number) : Refines (.start limit) .empty where
  held := rfl
  waiting := rfl
  issued := rfl
  given := by simp [DataChannel.start, Handoff.Queue.empty]
  pending := by simp [DataChannel.start]
  accepted := rfl

/-- A message that nobody waits for is queued. -/
theorem push_of_idle (hw : s.waiters = []) (message : Message) (size : Nat) :
    s.push message size =
      { s with
        buffered := s.buffered + size
        messages := s.messages ++ [(message, size)]
        accepted := s.accepted ++ [message] } := by
  simp [DataChannel.push, hw]

/-- A message goes to the oldest waiter. -/
theorem push_of_waiting {waiter : Nat} {rest : List Nat} (hw : s.waiters = waiter :: rest)
    (message : Message) (size : Nat) :
    s.push message size =
      { s with
        waiters := rest
        promises := s.promises.modify waiter (Promise.settle (.ok message))
        accepted := s.accepted ++ [message] } := by
  simp [DataChannel.push, hw]

theorem push_refines (h : Refines s q) : Refines (s.push message size) (q.offer message) := by
  cases hw : s.waiters with
  | nil =>
    rw [push_of_idle hw]
    obtain ⟨hh, hwait, hg, hi⟩ := Handoff.Queue.offer_of_idle (x := message) (h.waiting.trans hw)
    refine ⟨?_, ?_, ?_, ?_, ?_, ?_⟩
    · simp [hh, h.held]
    · exact hwait.trans hw.symm
    · exact hi.trans h.issued
    · rw [hg]; exact h.given
    · exact h.pending
    · simp only [h.accepted]; exact Handoff.Queue.accepted_offer.symm
  | cons waiter rest =>
    rw [push_of_waiting hw]
    have hwq : q.waiting = waiter :: rest := h.waiting.trans hw
    obtain ⟨hh, hwait, hg, hi⟩ := Handoff.Queue.offer_of_waiting (x := message) hwq
    obtain ⟨consumer, hp⟩ := (h.pending waiter).1 (by rw [hw]; exact List.mem_cons_self)
    have hrest : waiter ∉ rest := by
      have hord := (List.pairwise_append.1 q.ordered).2.1
      rw [hwq] at hord
      exact fun hm => Nat.lt_irrefl _ ((List.pairwise_cons.1 hord).1 waiter hm)
    have hself : (s.promises.modify waiter (Promise.settle (.ok message)))[waiter]? =
        some ⟨consumer, some (.ok message)⟩ := by simp [hp]
    refine ⟨?_, hwait, ?_, ?_, ?_, ?_⟩
    · rw [hh, ← h.held, Handoff.Queue.held_of_waiting hwq]
    · simp [hi, h.issued]
    · intro id m
      rw [hg, List.mem_append, h.given]
      by_cases hid : id = waiter
      · subst hid
        simp only [hself, hp]
        simp [eq_comm]
      · have hne : ¬ waiter = id := fun he => hid he.symm
        simp [List.getElem?_modify_ne _ _ hne, hid]
    · intro id
      show id ∈ rest ↔ _
      by_cases hid : id = waiter
      · subst hid
        simp [hself, hrest]
      · have hne : ¬ waiter = id := fun he => hid he.symm
        have hpend := h.pending id
        rw [hw, List.mem_cons, or_iff_right hid] at hpend
        simpa [List.getElem?_modify_ne _ _ hne] using hpend
    · simp only [h.accepted]; exact Handoff.Queue.accepted_offer.symm

theorem rejectWaiters_refines (h : Refines s q) (error : Error) :
    Refines (s.rejectWaiters error) q.dismiss := by
  have hpend : ∀ id p, s.promises[id]? = some p → (p.outcome = none ↔ id ∈ s.waiters) := by
    rintro id ⟨consumer, outcome⟩ hp
    rw [h.pending, hp]
    cases outcome <;> simp
  refine ⟨h.held, rfl, ?_, ?_, ?_, h.accepted⟩
  · exact h.issued.trans (length_rejectAll error s.waiters s.promises).symm
  · intro id m
    refine (h.given id m).trans ?_
    simp only [DataChannel.rejectWaiters, getElem?_rejectAll]
    cases hp : s.promises[id]? with
    | none => simp
    | some p =>
      obtain ⟨consumer, outcome⟩ := p
      have hin := hpend id _ hp
      by_cases hid : id ∈ s.waiters
      · have hout : outcome = none := hin.2 hid
        subst hout
        simp [hid]
      · simp [hid]
  · intro id
    simp only [DataChannel.rejectWaiters, getElem?_rejectAll]
    cases hp : s.promises[id]? with
    | none => simp
    | some p =>
      obtain ⟨consumer, outcome⟩ := p
      have hin := hpend id _ hp
      by_cases hid : id ∈ s.waiters
      · have hout : outcome = none := hin.2 hid
        subst hout
        simp [hid]
      · have hout : outcome ≠ none := fun he => hid (hin.1 he)
        simpa [hid] using hout

/-- The promises after one more is returned. -/
theorem getElem?_returned {ps : List Promise} {p p' : Promise} {id : Nat} :
    (ps ++ [p])[id]? = some p' ↔ ps[id]? = some p' ∨ id = ps.length ∧ p = p' := by
  rw [List.getElem?_append]
  split
  · next hlt =>
    have hne : id ≠ ps.length := Nat.ne_of_lt hlt
    simp [hne]
  · next hge =>
    rw [List.getElem?_singleton, List.getElem?_eq_none (Nat.not_lt.1 hge)]
    have hle := Nat.not_lt.1 hge
    by_cases hid : id = ps.length
    · simp [hid]
    · have hsub : ¬ id - ps.length = 0 := by omega
      simp [hid, hsub]

/-- A promise that is rejected at once is a refused request. -/
theorem refuse_refines (h : Refines s q) (consumer : Consumer) (error : Error) :
    Refines (s.returns consumer (some (.error error))) q.refuse := by
  refine ⟨h.held, h.waiting, ?_, ?_, ?_, h.accepted⟩
  · show q.issued + 1 = (s.promises ++ [_]).length
    rw [h.issued, List.length_append]
    rfl
  · intro id m
    simp [DataChannel.returns, getElem?_returned, Handoff.Queue.refuse, h.given]
  · intro id
    simp [DataChannel.returns, getElem?_returned, h.pending]

/-- `next()` asks the queue, or is refused. -/
theorem next_refines (h : Refines s q) (consumer : Consumer) :
    ∃ q', Refines (s.next consumer) q' ∧ (q' = q.ask ∨ q' = q.refuse) := by
  unfold DataChannel.next
  cases hm : s.messages with
  | cons entry rest =>
    obtain ⟨m₀, size⟩ := entry
    have hhead : q.held = m₀ :: rest.map Prod.fst := by rw [h.held, hm]; rfl
    obtain ⟨hh, hwait, hg, hi⟩ := Handoff.Queue.ask_of_held hhead
    have hnone : s.waiters = [] := h.waiting ▸ Handoff.Queue.waiting_of_held hhead
    refine ⟨q.ask, ⟨hh, hwait.trans hnone.symm, ?_, ?_, ?_, ?_⟩, .inl rfl⟩
    · show q.ask.issued = (s.promises ++ [_]).length
      rw [hi, h.issued, List.length_append]
      rfl
    · intro id m
      simp only [DataChannel.returns, getElem?_returned, hg, List.mem_append, h.given, h.issued]
      constructor
      · rintro (⟨c, hc⟩ | hmem)
        · exact ⟨c, .inl hc⟩
        · cases List.mem_singleton.1 hmem
          exact ⟨consumer, .inr ⟨rfl, rfl⟩⟩
      · rintro ⟨c, hc | ⟨rfl, hp⟩⟩
        · exact .inl ⟨c, hc⟩
        · cases hp
          exact .inr (List.mem_singleton.2 rfl)
    · intro id
      simp [DataChannel.returns, getElem?_returned, h.pending]
    · exact h.accepted.trans Handoff.Queue.accepted_ask.symm
  | nil =>
    dsimp only
    split
    · exact ⟨q.refuse, refuse_refines h consumer _, .inr rfl⟩
    · split
      · exact ⟨q.refuse, refuse_refines h consumer _, .inr rfl⟩
      · have hnone : q.held = [] := by rw [h.held, hm]; rfl
        obtain ⟨hh, hwait, hg, hi⟩ := Handoff.Queue.ask_of_none hnone
        refine ⟨q.ask, ⟨?_, ?_, ?_, ?_, ?_, ?_⟩, .inl rfl⟩
        · rw [hh]; simp [DataChannel.returns]
        · rw [hwait, h.waiting, h.issued]; rfl
        · show q.ask.issued = (s.promises ++ [_]).length
          rw [hi, h.issued, List.length_append]
          rfl
        · intro id m
          simp [DataChannel.returns, getElem?_returned, hg, h.given]
        · intro id
          simp only [DataChannel.returns, getElem?_returned, List.mem_append, h.pending,
            List.mem_singleton]
          constructor
          · rintro (⟨c, hc⟩ | rfl)
            · exact ⟨c, .inl hc⟩
            · exact ⟨consumer, .inr ⟨rfl, rfl⟩⟩
          · rintro ⟨c, hc | ⟨rfl, -⟩⟩
            · exact .inl ⟨c, hc⟩
            · exact .inr rfl
        · exact h.accepted.trans Handoff.Queue.accepted_ask.symm

end

/-! ## The invariant -/

/-- What every run keeps: the channel's queue is one that hands messages over in order, nobody waits
after an overflow or the end, only the stream waits after the claim, and the counter is the size of
the queued messages. -/
structure Inv (s : DataChannel) : Prop where
  refines : ∃ q, Refines s q
  idle : s.overflowed = true ∨ s.closed = true → s.waiters = []
  stream : s.streamClaimed = true → ∀ id ∈ s.waiters, ∀ p, s.promises[id]? = some p →
    p.consumer = .stream
  counted : s.buffered = (s.messages.map Prod.snd).sum

section
variable {s s' : DataChannel} {a : Act}

theorem inv_start (limit : Number) : Inv (.start limit) :=
  ⟨⟨_, refines_start limit⟩, fun _ => rfl, nofun, rfl⟩

/-- A queued message and a waiter exclude each other. -/
theorem Inv.excl (h : Inv s) : s.messages = [] ∨ s.waiters = [] := by
  obtain ⟨q, hq⟩ := h.refines
  rcases q.excl with he | he
  · exact .inl (List.map_eq_nil_iff.1 (hq.held ▸ he))
  · exact .inr (hq.waiting ▸ he)

theorem Inv.push (h : Inv s) (ho : s.overflowed = false) (hc : s.closed = false)
    (message : Message) (size : Nat) : Inv (s.push message size) := by
  obtain ⟨q, hq⟩ := h.refines
  refine ⟨⟨_, push_refines hq⟩, ?_, ?_, ?_⟩
  · cases hw : s.waiters with
    | nil => rw [push_of_idle hw]; exact fun _ => hw
    | cons waiter rest => rw [push_of_waiting hw]; simp [ho, hc]
  · cases hw : s.waiters with
    | nil => rw [push_of_idle hw]; exact h.stream
    | cons waiter rest =>
      rw [push_of_waiting hw]
      intro hs id hid p hp
      rw [List.getElem?_modify] at hp
      obtain ⟨p₀, hp₀, rfl⟩ := Option.map_eq_some_iff.1 hp
      have hstream := h.stream hs id (by rw [hw]; exact List.mem_cons_of_mem _ hid) p₀ hp₀
      split
      · exact hstream
      · exact hstream
  · cases hw : s.waiters with
    | nil => rw [push_of_idle hw]; simp [h.counted]
    | cons waiter rest => rw [push_of_waiting hw]; exact h.counted

theorem Inv.onMessage (h : Inv s) (hc : s.closed = false) (data : Data) :
    Inv (s.onMessage data) := by
  unfold DataChannel.onMessage
  split
  · exact h
  · next ho =>
    split
    · next hover =>
      -- the handler overflows only when nobody waits
      have hidle : s.waiters = [] := by
        simp only [DataChannel.overflows, Bool.and_eq_true, List.isEmpty_iff] at hover
        exact hover.2
      obtain ⟨q, hq⟩ := h.refines
      exact ⟨⟨q, hq.held, hq.waiting, hq.issued, hq.given, hq.pending, hq.accepted⟩,
        fun _ => hidle, h.stream, h.counted⟩
    · exact h.push (eq_false_of_ne_true ho) hc _ _

theorem Inv.rejectWaiters (h : Inv s) (error : Error) : Inv (s.rejectWaiters error) := by
  obtain ⟨q, hq⟩ := h.refines
  exact ⟨⟨_, rejectWaiters_refines hq error⟩, fun _ => rfl, fun _ _ => nofun, h.counted⟩

theorem Inv.onEnd (h : Inv s) : Inv s.onEnd := by
  unfold DataChannel.onEnd
  split
  · exact h
  · obtain ⟨⟨q, hq⟩, -, hs, hn⟩ := h.rejectWaiters s.endError
    exact ⟨⟨q, hq.held, hq.waiting, hq.issued, hq.given, hq.pending, hq.accepted⟩,
      fun _ => rfl, hs, hn⟩

theorem Inv.next (h : Inv s) (consumer : Consumer)
    (hs : s.streamClaimed = true → consumer = .stream) : Inv (s.next consumer) := by
  obtain ⟨q, hq⟩ := h.refines
  obtain ⟨q', hq', -⟩ := next_refines hq consumer
  -- a waiter of before has the promise of before, and the new waiter is the consumer's
  have hwait : ∀ outcome (l : List Nat), (∀ id ∈ l, id ∈ s.waiters ∨ id = s.promises.length) →
      s.streamClaimed = true → ∀ id ∈ l, ∀ p,
      (s.promises ++ [⟨consumer, outcome⟩])[id]? = some p → p.consumer = .stream := by
    intro outcome l hl hclaim id hid p hp
    rcases getElem?_returned.1 hp with hp | ⟨-, rfl⟩
    · rcases hl id hid with hw | rfl
      · exact h.stream hclaim id hw p hp
      · rw [List.getElem?_eq_none (Nat.le_refl _)] at hp
        cases hp
    · exact hs hclaim
  refine ⟨⟨q', hq'⟩, ?_, ?_, ?_⟩
  all_goals
    unfold DataChannel.next
    cases hm : s.messages with
    | cons entry rest => ?_
    | nil => ?_
  · exact h.idle
  · dsimp only
    split
    · exact h.idle
    · next ho =>
      split
      · exact h.idle
      · next hc => simp [DataChannel.returns, ho, hc]
  · exact hwait _ s.waiters fun _ => .inl
  · dsimp only
    split
    · exact hwait _ s.waiters fun _ => .inl
    · split
      · exact hwait _ s.waiters fun _ => .inl
      · refine hwait _ (s.waiters ++ [s.promises.length]) fun id hid => ?_
        simpa using hid
  · have hn := h.counted
    rw [hm, List.map_cons, List.sum_cons] at hn
    simp only [DataChannel.returns]
    omega
  · have hn := h.counted
    dsimp only
    split
    · exact hn
    · split
      · exact hn
      · rw [hm] at hn; exact hn

theorem Inv.step (h : Inv s) (hs : s.step a = some s') : Inv s' := by
  cases a with
  | message data =>
    simp only [DataChannel.step] at hs
    split at hs
    · cases hs
    · next hc => cases hs; exact h.onMessage (eq_false_of_ne_true hc) data
  | close | error => cases hs; exact h.onEnd
  | receive =>
    cases hs
    unfold DataChannel.receive
    split
    · exact h
    · next hc => exact h.next _ fun hs => absurd hs hc
  | receiveViaStream =>
    cases hs
    unfold DataChannel.receiveViaStream
    split
    · exact h
    · obtain ⟨⟨q, hq⟩, hi, -, hn⟩ := h.rejectWaiters .receivingViaStream
      exact ⟨⟨q, hq.held, hq.waiting, hq.issued, hq.given, hq.pending, hq.accepted⟩,
        fun _ => rfl, fun _ _ => nofun, hn⟩
  | pull =>
    simp only [DataChannel.step] at hs
    split at hs
    · cases hs; exact h.next _ fun _ => rfl
    · cases hs

end

/-! ## Runs -/

section
variable {s s' t : DataChannel} {a : Act} {as : List Act}

theorem next_kept (s : DataChannel) (consumer : Consumer) :
    (s.next consumer).overflowed = s.overflowed ∧ (s.next consumer).accepted = s.accepted ∧
      (s.next consumer).streamClaimed = s.streamClaimed := by
  unfold DataChannel.next
  split
  · exact ⟨rfl, rfl, rfl⟩
  · split
    · exact ⟨rfl, rfl, rfl⟩
    · split <;> exact ⟨rfl, rfl, rfl⟩

/-- A message is accepted, or refused for good by an overflow; no other step accepts anything. -/
theorem step_accepted (h : s.step a = some s') :
    (a.arrival? = none ∧ s'.overflowed = s.overflowed ∧ s'.accepted = s.accepted) ∨
    (∃ m, a.arrival? = some m ∧ s.overflowed = false ∧ s'.overflowed = false ∧
      s'.accepted = s.accepted ++ [m]) ∨
    (∃ m, a.arrival? = some m ∧ s'.overflowed = true ∧ s'.accepted = s.accepted) := by
  cases a with
  | message data =>
    simp only [DataChannel.step] at h
    split at h
    · cases h
    · cases h
      refine .inr ?_
      unfold DataChannel.onMessage
      split
      · next ho => exact .inr ⟨_, rfl, ho, rfl⟩
      · next ho =>
        split
        · exact .inr ⟨_, rfl, rfl, rfl⟩
        · refine .inl ⟨_, rfl, eq_false_of_ne_true ho, ?_, ?_⟩
          · unfold DataChannel.push; split <;> exact eq_false_of_ne_true ho
          · unfold DataChannel.push; split <;> rfl
  | close | error =>
    cases h
    refine .inl ⟨rfl, ?_⟩
    unfold DataChannel.onEnd
    split <;> exact ⟨rfl, rfl⟩
  | receive =>
    cases h
    refine .inl ⟨rfl, ?_⟩
    unfold DataChannel.receive
    split
    · exact ⟨rfl, rfl⟩
    · exact ⟨(next_kept s _).1, (next_kept s _).2.1⟩
  | receiveViaStream =>
    cases h
    refine .inl ⟨rfl, ?_⟩
    unfold DataChannel.receiveViaStream
    split <;> exact ⟨rfl, rfl⟩
  | pull =>
    simp only [DataChannel.step] at h
    split at h
    · cases h; exact .inl ⟨rfl, (next_kept s _).1, (next_kept s _).2.1⟩
    · cases h

/-- After an overflow nothing is accepted. -/
theorem run_overflowed (ho : s.overflowed = true) (h : Runs.run DataChannel.step s as = some t) :
    t.overflowed = true ∧ t.accepted = s.accepted := by
  refine Runs.invariant (I := fun t : DataChannel => t.overflowed = true ∧ t.accepted = s.accepted)
    ?_ ⟨ho, rfl⟩ h
  rintro u a u' ⟨hu, hacc⟩ hs
  rcases step_accepted hs with ⟨-, ho', ha⟩ | ⟨m, -, hno, -⟩ | ⟨m, -, ho', ha⟩
  · exact ⟨ho'.trans hu, ha.trans hacc⟩
  · rw [hu] at hno; cases hno
  · exact ⟨ho', ha.trans hacc⟩

/-- What is accepted is what arrived, up to an overflow. -/
theorem run_accepted (h : Runs.run DataChannel.step s as = some t) :
    ∃ more, t.accepted = s.accepted ++ more ∧ more <+: arrived as ∧
      (t.overflowed = false → more = arrived as) := by
  induction as generalizing s with
  | nil =>
    cases h
    exact ⟨[], (List.append_nil _).symm, List.nil_prefix, fun _ => rfl⟩
  | cons a as ih =>
    obtain ⟨s', hs, h⟩ := Runs.run_cons_eq_some.1 h
    obtain ⟨more, hacc, hpre, heq⟩ := ih h
    rcases step_accepted hs with ⟨ha, -, he⟩ | ⟨m, ha, -, -, he⟩ | ⟨m, ha, ho, he⟩
    · have harr : arrived (a :: as) = arrived as := by simp [arrived, ha]
      exact ⟨more, by rw [hacc, he], harr ▸ hpre, fun ht => harr ▸ heq ht⟩
    · have harr : arrived (a :: as) = m :: arrived as := by simp [arrived, ha]
      refine ⟨m :: more, by rw [hacc, he]; simp, ?_, fun ht => ?_⟩
      · rw [harr]; exact List.cons_prefix_cons.2 ⟨rfl, hpre⟩
      · rw [harr, heq ht]
    · obtain ⟨hto, hta⟩ := run_overflowed ho h
      exact ⟨[], by rw [hta, he, List.append_nil], List.nil_prefix, by rw [hto]; nofun⟩

/-- A claimed channel stays claimed, and no step settles a `receive()` with a message. -/
theorem step_claimed (hi : Inv s) (hc : s.streamClaimed = true) (h : s.step a = some s') :
    s'.streamClaimed = true ∧ ∀ (id : Nat) (m : Message),
      s'.promises[id]? = some ⟨.receive, some (.ok m)⟩ →
        s.promises[id]? = some ⟨.receive, some (.ok m)⟩ := by
  have hreject : ∀ error (id : Nat) (m : Message),
      (s.rejectWaiters error).promises[id]? = some ⟨.receive, some (.ok m)⟩ →
      s.promises[id]? = some ⟨.receive, some (.ok m)⟩ := by
    intro error id m hp
    simp only [DataChannel.rejectWaiters, getElem?_rejectAll] at hp
    obtain ⟨⟨consumer, outcome⟩, hp₀, he⟩ := Option.map_eq_some_iff.1 hp
    rw [hp₀]
    split at he
    · cases outcome with
      | none => cases he
      | some r => exact congrArg some he
    · exact congrArg some he
  cases a with
  | message data =>
    simp only [DataChannel.step] at h
    split at h
    · cases h
    · cases h
      unfold DataChannel.onMessage
      split
      · exact ⟨hc, fun _ _ hp => hp⟩
      · split
        · exact ⟨hc, fun _ _ hp => hp⟩
        · cases hw : s.waiters with
          | nil => rw [push_of_idle hw]; exact ⟨hc, fun _ _ hp => hp⟩
          | cons waiter rest =>
            rw [push_of_waiting hw]
            refine ⟨hc, fun id m hp => ?_⟩
            rw [List.getElem?_modify] at hp
            obtain ⟨p, hp₀, he⟩ := Option.map_eq_some_iff.1 hp
            split at he
            · next hid =>
              -- the waiter is a pull of the stream
              subst hid
              have hstream := hi.stream hc waiter (by rw [hw]; exact List.mem_cons_self) p hp₀
              have hcons : p.consumer = .receive := congrArg Promise.consumer he
              rw [hstream] at hcons
              cases hcons
            · rw [hp₀, he]
  | close | error =>
    cases h
    unfold DataChannel.onEnd
    split
    · exact ⟨hc, fun _ _ hp => hp⟩
    · exact ⟨hc, hreject _⟩
  | receive =>
    cases h
    simp only [DataChannel.receive, hc, if_true]
    exact ⟨hc, fun _ _ hp => hp⟩
  | receiveViaStream =>
    cases h
    simp only [DataChannel.receiveViaStream, hc, if_true]
    exact ⟨hc, fun _ _ hp => hp⟩
  | pull =>
    simp only [DataChannel.step, hc, if_true] at h
    cases h
    refine ⟨(next_kept s _).2.2.trans hc, fun id m hp => ?_⟩
    have hret : ∃ outcome, (s.next .stream).promises = s.promises ++ [⟨.stream, outcome⟩] := by
      unfold DataChannel.next
      split
      · exact ⟨_, rfl⟩
      · split
        · exact ⟨_, rfl⟩
        · split <;> exact ⟨_, rfl⟩
    obtain ⟨outcome, hret⟩ := hret
    rw [hret] at hp
    rcases getElem?_returned.1 hp with hp | ⟨-, he⟩
    · exact hp
    · cases he

end

/-- In every run of a channel: a queued message and a waiter exclude each other; the messages that
arrived are given to `next()` calls in order, each to one, and then queued, up to an overflow; after
an overflow nothing more is accepted, and `next()` answers with what is queued and then that the
buffer overflowed; after the end it answers `closed` when nothing is queued and there was no
overflow; and after the claim no `receive()` is settled with a message. -/
theorem incoming_delivered (limit : Number) {as : List Act} {s : DataChannel}
    (h : Runs.run DataChannel.step (.start limit) as = some s) :
    (s.messages = [] ∨ s.waiters = []) ∧
    (∃ given : List (Nat × Message),
      given.map Prod.snd ++ s.messages.map Prod.fst <+: arrived as ∧
      (s.overflowed = false → given.map Prod.snd ++ s.messages.map Prod.fst = arrived as) ∧
      (given.map Prod.fst).Pairwise (· < ·) ∧
      (∀ id m, (id, m) ∈ given ↔
        ∃ consumer, s.promises[id]? = some ⟨consumer, some (.ok m)⟩) ∧
      given.map Prod.snd ++ s.messages.map Prod.fst = s.accepted) ∧
    (s.overflowed = true →
      (∀ bs t, Runs.run DataChannel.step s bs = some t →
        t.overflowed = true ∧ t.accepted = s.accepted) ∧
      (∀ m size rest, s.messages = (m, size) :: rest → ∀ consumer,
        (s.next consumer).promises = s.promises ++ [⟨consumer, some (.ok m)⟩]) ∧
      (s.messages = [] → ∀ consumer, (s.next consumer).promises =
        s.promises ++ [⟨consumer, some (.error .receiveBufferOverflow)⟩])) ∧
    (s.overflowed = false → s.closed = true → s.messages = [] → ∀ consumer,
      (s.next consumer).promises = s.promises ++ [⟨consumer, some (.error .closed)⟩]) ∧
    (s.streamClaimed = true → ∀ bs t (id : Nat) (m : Message),
      Runs.run DataChannel.step s bs = some t →
      t.promises[id]? = some ⟨.receive, some (.ok m)⟩ →
      s.promises[id]? = some ⟨.receive, some (.ok m)⟩) := by
  have hi : Inv s := Runs.invariant (fun _ _ _ => Inv.step) (inv_start limit) h
  refine ⟨hi.excl, ?_, fun ho => ⟨fun bs t => run_overflowed ho, ?_, ?_⟩, ?_, ?_⟩
  · obtain ⟨q, hq⟩ := hi.refines
    obtain ⟨more, hacc, hpre, heq⟩ := run_accepted h
    have hgiven : q.given.map Prod.snd ++ s.messages.map Prod.fst = s.accepted := by
      rw [hq.accepted, ← hq.held]
      rfl
    have hmore : s.accepted = more := hacc
    refine ⟨q.given, ?_, fun ho => ?_, q.given_ordered, hq.given, hgiven⟩
    · rw [hgiven, hmore]; exact hpre
    · rw [hgiven, hmore]; exact heq ho
  · intro m size rest hm consumer
    simp [DataChannel.next, DataChannel.returns, hm]
  · intro hm consumer
    simp [DataChannel.next, DataChannel.returns, ho, hm]
  · intro ho hc hm consumer
    simp [DataChannel.next, DataChannel.returns, ho, hc, hm]
  · intro hc bs t id m ht hp
    have hlater := Runs.invariant (I := fun t : DataChannel => Inv t ∧ t.streamClaimed = true ∧
        ∀ (id : Nat) (m : Message), t.promises[id]? = some ⟨.receive, some (.ok m)⟩ →
          s.promises[id]? = some ⟨.receive, some (.ok m)⟩) ?_ ⟨hi, hc, fun _ _ hp => hp⟩ ht
    · exact hlater.2.2 id m hp
    · rintro u a u' ⟨hu, hcl, hold⟩ hs
      obtain ⟨hcl', hnew⟩ := step_claimed hu hcl hs
      exact ⟨hu.step hs, hcl', fun id m hp => hold id m (hnew id m hp)⟩

/-- A `receive()` is pending when the first message comes, the next two are queued, the fourth
overflows, and the stream takes over. -/
theorem incoming_delivered_of_overflow :
    ∃ s, Runs.run DataChannel.step (.start (.finite 3))
        [.receive, .message (.text "abcd"), .message (.buffer [1]), .message (.text "é"),
          .message (.buffer [2, 3]), .close, .receiveViaStream, .pull] = some s ∧
      s.accepted = [.string "abcd", .binary [1], .string "é"] ∧
      (s.next .stream).promises.length = 3 := by
  refine ⟨_, rfl, rfl, ?_⟩
  have h := @incoming_delivered (.finite 3)
    [.receive, .message (.text "abcd"), .message (.buffer [1]), .message (.text "é"),
      .message (.buffer [2, 3]), .close, .receiveViaStream, .pull] _ rfl
  rw [(h.2.2.1 rfl).2.1 (.string "é") 1 [] rfl .stream]
  rfl

end WebrtcDatachannels.Jco
