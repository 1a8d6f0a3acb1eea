import WebrtcDatachannels.Wit
import WebrtcDatachannels.Lib.BoundedLog
import WebrtcDatachannels.Lib.Runs

/-!
# The inbound queue of a Wasmtime channel

`wasmtime-impl/src/data_channel.rs`. A channel's pump reserves the bytes of each polled message on
an atomic counter before it sends the message to the channel's queue, and readers that hold the
queue's async mutex release them. `Pumped` is the pump, the readers and the wiring task of one
channel at the granularity of single atomic operations; `Reserving` is `InboundBudget::reserve` cut
at its loads and stores. The pump decides on a message at its load of the counter, and a reader is
done with one at its release: read so, every step is a step of the bounded log that the queue is
meant to be (`Refines.step`), and the wiring task reports what the pump polled (`Signalled`). The
two give the queue's accounting over every run (`queue_accounting`).
-/

namespace WebrtcDatachannels.Host

open BoundedLog

/-- A received data-channel message. Source: `InboundMessage`. -/
structure InboundMessage where
  isString : Bool
  data : Bytes
deriving DecidableEq, Repr

/-- The payload bytes of a message, `data.len()`. -/
def InboundMessage.len (m : InboundMessage) : Nat := m.data.length

/-- A host-side failure, with its source chain flattened as the binding boundary does it. Source:
`WebrtcError`. -/
abbrev WebrtcError := Error

/-- What `webrtc`'s `DataChannel::poll` returns; `other` stands for the events that the pump
ignores. Source: `DataChannelEvent`. -/
inductive DataChannelEvent where
  | onOpen
  | onMessage (message : InboundMessage)
  | onClose
  | other
deriving DecidableEq, Repr

/-- The message of an event. -/
def DataChannelEvent.message? : DataChannelEvent → Option InboundMessage
  | .onMessage m => some m
  | _ => none

/-- The messages of a list of events. -/
def messages (es : List DataChannelEvent) : List InboundMessage :=
  es.filterMap DataChannelEvent.message?

/-! ## The budget -/

/-- `usize::MAX` on a 64-bit host. -/
def usizeMax : Nat := 2 ^ 64 - 1

/-- `usize::saturating_add`. -/
def saturatingAdd (a b : Nat) : Nat := min (a + b) usizeMax

/-- What `AtomicUsize::fetch_add` stores. -/
def fetchAdd (a b : Nat) : Nat := (a + b) % (usizeMax + 1)

/-- What `AtomicUsize::fetch_sub` stores. -/
def fetchSub (a b : Nat) : Nat := (a + (usizeMax + 1 - b)) % (usizeMax + 1)

/-- The accounting of buffered bytes. Source: `InboundBudget`. -/
structure InboundBudget where
  limit : Nat
  buffered : Nat
  overflowed : Bool
deriving DecidableEq, Repr

namespace InboundBudget

/-- `InboundBudget::default`, with the configured bound. -/
def new (limit : Nat) : InboundBudget := { limit, buffered := 0, overflowed := false }

/-- The bound check of `reserve`. -/
def exceeds (b : InboundBudget) (len : Nat) : Bool := b.limit < saturatingAdd b.buffered len

/-- `InboundBudget::reserve`, as one step. -/
def reserve (b : InboundBudget) (len : Nat) : Bool × InboundBudget :=
  if b.overflowed then (false, b)
  else if b.exceeds len then (false, { b with overflowed := true })
  else (true, { b with buffered := fetchAdd b.buffered len })

/-- `InboundBudget::release`. -/
def release (b : InboundBudget) (len : Nat) : InboundBudget :=
  { b with buffered := fetchSub b.buffered len }

end InboundBudget

section
variable {a b : Nat}

theorem fetchAdd_of_le (h : a + b ≤ usizeMax) : fetchAdd a b = a + b :=
  Nat.mod_eq_of_lt (Nat.lt_succ_of_le h)

/-- `fetch_sub` does not wrap when it subtracts no more than is there. -/
theorem fetchSub_of_le (hba : b ≤ a) (ha : a ≤ usizeMax) : fetchSub a b = a - b := by
  have hsum : a + (usizeMax + 1 - b) = a - b + (usizeMax + 1) := by omega
  rw [fetchSub, hsum, Nat.add_mod_right]
  exact Nat.mod_eq_of_lt (by omega)

/-- The bound check compares the true sum, unless the bound is `usize::MAX` and the sum more. -/
theorem InboundBudget.exceeds_iff {c : InboundBudget}
    (h : c.limit < usizeMax ∨ c.buffered + b ≤ usizeMax) :
    c.exceeds b = true ↔ c.limit < c.buffered + b := by
  rw [exceeds, saturatingAdd, decide_eq_true_iff, Nat.lt_min]
  omega

end

/-- A reservation is granted while no overflow is latched, or leaves one latched. -/
theorem InboundBudget.reserve_cases (c : InboundBudget) (len : Nat) :
    ((c.reserve len).1 = true ∧ c.overflowed = false ∧ (c.reserve len).2.overflowed = false) ∨
      ((c.reserve len).1 = false ∧ (c.reserve len).2.overflowed = true) := by
  unfold reserve
  split
  · next ho => exact .inr ⟨rfl, ho⟩
  · next ho =>
    split
    · exact .inr ⟨rfl, rfl⟩
    · exact .inl ⟨rfl, eq_false_of_ne_true ho, eq_false_of_ne_true ho⟩

/-! ## The pump, the readers and the wiring task -/

/-- Where `InboundBudget::reserve` is: before its load of the overflow flag, before its load of the
counter, before its store of the flag, or before its addition. -/
inductive Reserving where
  | loadOverflowed
  | loadBuffered
  | storeOverflowed
  | add
deriving DecidableEq, Repr

/-- Where the pump is: awaiting `poll`, about to send the open signal, within a reservation, about
to send a message to the queue, awaiting `channel.close()`, out of its loop with both senders still
to drop or only the queue's, or gone. Source: `spawn_channel_pump`. -/
inductive Pump where
  | polling
  | opening
  | reserving (message : InboundMessage) (at_ : Reserving)
  | sending (message : InboundMessage)
  | closing
  | leaving
  | dropping
  | gone
deriving DecidableEq, Repr

/-- The open `oneshot`: the pump still has its sender, has sent, or has dropped it. -/
inductive OpenSignal where
  | held
  | sent
  | dropped
deriving DecidableEq, Repr

/-- Where the holder of the queue's mutex is: awaiting the receiver, about to release a message's
bytes, or with `next` having returned `None`. -/
inductive Guard where
  | receiving
  | releasing (message : InboundMessage)
  | ended
deriving DecidableEq, Repr

/-- One channel's pump, queue, readers and wiring task. `waiting` readers await the mutex. The last
five fields are the history: the events polled, those polled before the first refused one, the bytes
reserved and released, and what `next_inbound` returned, in order. -/
structure Pumped where
  budget : InboundBudget
  queue : List InboundMessage
  pump : Pump
  openSignal : OpenSignal
  wired : Option (Except WebrtcError Unit)
  waiting : Nat
  guard : Option Guard
  polled : List DataChannelEvent
  refused : Option (List DataChannelEvent)
  reserved : Nat
  released : Nat
  returned : List (Except WebrtcError InboundMessage)
deriving DecidableEq

/-- The atomic steps: the pump polls an event or the end of the events, takes its next step, or gets
its `channel.close()` back; the wiring task resolves; a reader starts, gives up waiting, gets the
mutex, gives up receiving, receives, and returns. -/
inductive PumpedAct where
  | poll (event : Option DataChannelEvent)
  | pump
  | wire
  | read
  | abandon
  | lock
  | cancel
  | receive
  | finish
deriving DecidableEq, Repr

namespace Pumped

/-- A channel whose pump has just been spawned. -/
def start (limit : Nat) : Pumped :=
  { budget := .new limit, queue := [], pump := .polling, openSignal := .held, wired := none,
    waiting := 0, guard := none, polled := [], refused := none, reserved := 0, released := 0,
    returned := [] }

/-- The message in a reader's hand. -/
def inHand (s : Pumped) : List InboundMessage :=
  match s.guard with
  | some (.releasing m) => [m]
  | _ => []

/-- A message is polled next to the buffered ones. A bound of `usize::MAX` refuses nothing, and only
memory is the limit: the payloads are in it together, so their lengths sum within a `usize`. -/
def Fits (s : Pumped) : Option DataChannelEvent → Prop
  | some (.onMessage m) =>
    s.budget.limit = usizeMax → load InboundMessage.len (s.inHand ++ s.queue ++ [m]) ≤ usizeMax
  | _ => True

instance (s : Pumped) : (e : Option DataChannelEvent) → Decidable (s.Fits e)
  | some (.onMessage _) => inferInstanceAs (Decidable (_ → _))
  | some .onOpen | some .onClose | some .other | none => isTrue trivial

/-- Where the pump is after a poll. -/
def afterPoll : Option DataChannelEvent → Pump
  | some .onOpen => .opening
  | some (.onMessage m) => .reserving m .loadOverflowed
  | some .other => .polling
  | some .onClose | none => .leaving

/-- The pump's next atomic operation, when it is not awaiting. -/
def pumpStep (s : Pumped) : Option Pumped :=
  match s.pump with
  | .polling | .gone => none
  | .opening =>
    some
      { s with
        openSignal := if s.openSignal = .held then .sent else s.openSignal
        pump := .polling }
  | .reserving m .loadOverflowed =>
    some { s with pump := if s.budget.overflowed then .closing else .reserving m .loadBuffered }
  | .reserving m .loadBuffered =>
    if s.budget.exceeds m.len then
      some
        { s with
          pump := .reserving m .storeOverflowed
          refused := some (s.refused.getD s.polled.dropLast) }
    else some { s with pump := .reserving m .add }
  | .reserving _ .storeOverflowed =>
    some { s with budget := { s.budget with overflowed := true }, pump := .closing }
  | .reserving m .add =>
    some
      { s with
        budget := { s.budget with buffered := fetchAdd s.budget.buffered m.len }
        reserved := s.reserved + m.len
        pump := .sending m }
  | .sending m => some { s with queue := s.queue ++ [m], pump := .polling }
  | .closing => some { s with pump := .polling }
  | .leaving =>
    some
      { s with
        openSignal := if s.openSignal = .held then .dropped else s.openSignal
        pump := .dropping }
  | .dropping => some { s with pump := .gone }

/-- One atomic step. -/
def step (s : Pumped) : PumpedAct → Option Pumped
  | .poll e =>
    if s.pump = .polling ∧ s.Fits e then
      some { s with pump := afterPoll e, polled := s.polled ++ e.toList }
    else none
  | .pump => s.pumpStep
  | .wire =>
    if s.wired = none then
      match s.openSignal with
      | .held => none
      | .sent => some { s with wired := some (.ok ()) }
      | .dropped => some { s with wired := some (.error .closed) }
    else none
  | .read => some { s with waiting := s.waiting + 1 }
  | .abandon => if 0 < s.waiting then some { s with waiting := s.waiting - 1 } else none
  | .lock =>
    if s.guard = none ∧ 0 < s.waiting then
      some { s with waiting := s.waiting - 1, guard := some .receiving }
    else none
  | .cancel => if s.guard = some .receiving then some { s with guard := none } else none
  | .receive =>
    if s.guard = some .receiving then
      match s.queue with
      | m :: rest => some { s with queue := rest, guard := some (.releasing m) }
      | [] => if s.pump = .gone then some { s with guard := some .ended } else none
    else none
  | .finish =>
    match s.guard with
    | some (.releasing m) =>
      some
        { s with
          budget := s.budget.release m.len
          released := s.released + m.len
          guard := none
          returned := s.returned ++ [.ok m] }
    | some .ended =>
      some
        { s with
          guard := none
          returned :=
            s.returned ++
              [.error (if s.budget.overflowed then .receiveBufferOverflow else .closed)] }
    | _ => none

end Pumped

/-! ## The log that the queue is -/

namespace Pump

/-- The message that the pump has admitted and not sent yet. -/
def admitted : Pump → List InboundMessage
  | .reserving m .add | .sending m => [m]
  | _ => []

/-- The bytes of an admitted message that are not on the counter yet. -/
def uncounted : Pump → Nat
  | .reserving m .add => m.len
  | _ => 0

/-- Only an admitted message is not counted yet. -/
theorem uncounted_le (p : Pump) : p.uncounted ≤ load InboundMessage.len p.admitted := by
  unfold uncounted admitted
  split <;> simp

/-- The message that the pump has yet to decide on. -/
def deciding : Pump → List InboundMessage
  | .reserving m .loadOverflowed | .reserving m .loadBuffered => [m]
  | _ => []

/-- The pump is about to latch the overflow. -/
def latching : Pump → Bool
  | .reserving _ .storeOverflowed => true
  | _ => false

/-- The pump is in its loop, and not about to send the open signal. -/
def working : Pump → Bool
  | .opening | .dropping | .gone => false
  | _ => true

/-- The pump has seen the flag down and goes on to send. -/
def passing : Pump → Bool
  | .reserving _ .loadBuffered | .reserving _ .add | .sending _ => true
  | _ => false

/-- What is admitted has passed the flag. -/
theorem admitted_of_not_passing {p : Pump} (h : p.passing = false) : p.admitted = [] := by
  cases p with
  | reserving m r => cases r <;> first | rfl | cases h
  | sending => cases h
  | _ => rfl

end Pump

namespace Pumped

/-- The messages that `next` returned, in order. -/
def delivered (s : Pumped) : List InboundMessage := s.returned.filterMap Except.toOption

/-- The events polled before the first refused reservation, or all of them. -/
def preceding (s : Pumped) : List DataChannelEvent := s.refused.getD s.polled

/-- The message that the pump has yet to decide on, before any refusal. -/
def undecided (s : Pumped) : List InboundMessage :=
  if s.refused = none then s.pump.deciding else []

variable {limit : Nat} {s s' : Pumped} {q : Log InboundMessage.len limit} {a : PumpedAct}

/-- The queue, its readers and its pump make the log `q`: the log holds the message in a reader's
hand, the queue, and what the pump has admitted, and it has decided on every event up to the first
refused one. -/
structure Refines (s : Pumped) (q : Log InboundMessage.len limit) : Prop where
  limit : s.budget.limit = limit
  taken : q.taken = s.delivered
  held : q.held = s.inHand ++ s.queue ++ s.pump.admitted
  shut : q.shut = s.refused.isSome
  decided : messages s.preceding = q.accepted ++ s.undecided
  counted : s.budget.buffered + s.pump.uncounted = load InboundMessage.len q.held
  conserved : s.budget.buffered + s.released = s.reserved
  latched : s.refused.isSome = (s.budget.overflowed || s.pump.latching)
  passing : s.pump.passing = true → s.refused = none
  polled : ∀ m ∈ s.pump.deciding, s.polled = s.polled.dropLast ++ [.onMessage m] ∧
    (s.budget.limit = usizeMax →
      load InboundMessage.len (s.inHand ++ s.queue ++ [m]) ≤ usizeMax)

/-- The log operation of a step: the pump decides when it loads the counter, a reader takes when it
releases. -/
def ops (s : Pumped) : PumpedAct → List (Op InboundMessage)
  | .pump => match s.pump with
    | .reserving m .loadBuffered => [.offer m]
    | _ => []
  | .finish => match s.guard with
    | some (.releasing _) => [.take]
    | _ => []
  | _ => []

theorem messages_append (es es' : List DataChannelEvent) :
    messages (es ++ es') = messages es ++ messages es' := by
  simp [messages]

theorem Refines.start (limit : Nat) : (Pumped.start limit).Refines (.empty : Log _ limit) where
  limit := rfl
  taken := rfl
  held := rfl
  shut := rfl
  decided := rfl
  counted := rfl
  conserved := rfl
  latched := rfl
  passing := nofun
  polled := nofun

/-- What is on the counter is within the limit. -/
theorem Refines.within (h : s.Refines q) : s.budget.buffered ≤ limit := by
  have := h.counted
  have := q.bound
  omega

/-- What is within the limit is a `usize`. -/
theorem Refines.buffered_le (h : s.Refines q) (hlimit : limit ≤ usizeMax) :
    s.budget.buffered ≤ usizeMax :=
  Nat.le_trans h.within hlimit

/-- A poll leaves the pump with the polled message to decide on, if there is one. -/
theorem afterPoll_spec (e : Option DataChannelEvent) :
    (afterPoll e).admitted = [] ∧ (afterPoll e).uncounted = 0 ∧
      (afterPoll e).deciding = messages e.toList ∧ (afterPoll e).latching = false ∧
      (afterPoll e).passing = false := by
  cases e with
  | none => exact ⟨rfl, rfl, rfl, rfl, rfl⟩
  | some e => cases e <;> exact ⟨rfl, rfl, rfl, rfl, rfl⟩

/-- The pump polls. -/
theorem Refines.poll (h : s.Refines q) {e : Option DataChannelEvent}
    (hs : s.step (.poll e) = some s') : s'.Refines q := by
  simp only [step] at hs
  split at hs
  · next hg =>
    obtain ⟨hp, hfit⟩ := hg
    cases hs
    obtain ⟨hadm, hunc, hdec, hlat, hpas⟩ := afterPoll_spec e
    obtain ⟨h1, h2, h3, h4, h5, h6, h7, h8, -, -⟩ := h
    rw [hp] at h3 h6 h8
    refine ⟨h1, h2, by rw [hadm]; exact h3, h4, ?_, by rw [hunc]; exact h6, h7,
      by rw [hlat]; exact h8, fun hc => absurd (hpas.symm.trans hc) nofun, ?_⟩
    · -- the events before a refusal stay; without one the polled message is to be decided
      rw [undecided, hdec]
      rw [undecided, hp] at h5
      cases hr : s.refused with
      | some es =>
        rw [preceding, hr] at h5
        simpa [preceding, hr] using h5
      | none =>
        rw [preceding, hr] at h5
        simpa [preceding, hr, messages_append, Pump.deciding] using h5
    · intro m hm
      rw [hdec] at hm
      cases e with
      | none => cases hm
      | some e =>
        cases e with
        | onMessage m' =>
          cases List.mem_singleton.1 hm
          exact ⟨by simp, hfit⟩
        | onOpen | onClose | other => cases hm
  · cases hs

/-- The load of the counter: the pump decides on the message as the log does. -/
theorem Refines.decide (hlimit : limit ≤ usizeMax) (h : s.Refines q) {m : InboundMessage}
    (hp : s.pump = .reserving m .loadBuffered) (hs : s.step .pump = some s') :
    s'.Refines (q.offer m) := by
  obtain ⟨h1, h2, h3, h4, h5, h6, h7, h8, h9, h10⟩ := h
  rw [undecided] at h5
  rw [hp] at h3 h5 h6 h8 h9 h10
  have hr : s.refused = none := h9 rfl
  rw [if_pos hr, preceding, hr] at h5
  obtain ⟨hpolled, hfits⟩ := h10 m (List.mem_singleton_self m)
  simp only [Pump.admitted, List.append_nil, Pump.uncounted, Nat.add_zero] at h3 h6
  have hload : s.budget.limit < usizeMax ∨ s.budget.buffered + m.len ≤ usizeMax := by
    rw [h1, h6, h3]
    exact (Nat.lt_or_eq_of_le hlimit).imp_right fun hl => by
      simpa [Nat.add_assoc] using hfits (h1.trans hl)
  have hadm : q.Admits m ↔ s.budget.exceeds m.len = false := by
    rw [← Bool.not_eq_true (s.budget.exceeds _), InboundBudget.exceeds_iff hload, h1, Nat.not_lt,
      h6]
    simp [Log.Admits, h4, hr]
  simp only [step, pumpStep, hp] at hs
  cases hex : s.budget.exceeds m.len with
  | true =>
    -- refused: everything polled before this message is what the log has decided on
    rw [Log.offer_of_not_admits (by rw [hadm, hex]; nofun)]
    simp only [hex, if_true] at hs
    cases hs
    refine ⟨h1, h2, ?_, rfl, ?_, h6, h7, ?_, nofun, nofun⟩
    · exact h3.trans (List.append_nil _).symm
    · have hmsgs : messages (s.polled.dropLast ++ [.onMessage m]) = q.accepted ++ [m] := by
        rw [← hpolled]
        exact h5
      rw [messages_append] at hmsgs
      simpa [preceding, undecided, hr] using List.append_cancel_right hmsgs
    · simp [Pump.latching]
  | false =>
    have hq : q.Admits m := hadm.2 hex
    obtain ⟨ht, hh, hsh⟩ := Log.offer_of_admits hq
    simp only [hex, Bool.false_eq_true, if_false] at hs
    cases hs
    refine ⟨h1, ht.trans h2, ?_, ?_, ?_, ?_, h7, ?_, fun _ => hr, nofun⟩
    · rw [hh, h3]
      rfl
    · rw [hsh, hr]
      rfl
    · rw [Log.accepted_offer_of_admits hq]
      simpa [preceding, undecided, hr, Pump.deciding] using h5
    · rw [hh, load_append, ← h6]
      simp [Pump.uncounted]
    · simpa [hr, Pump.latching] using h8

/-- The pump takes its next step. -/
theorem Refines.pump (hlimit : limit ≤ usizeMax) (h : s.Refines q)
    (hs : s.step .pump = some s') : s'.Refines (q.applyAll (s.ops .pump)) := by
  by_cases hdec : ∃ m, s.pump = .reserving m .loadBuffered
  · obtain ⟨m, hp⟩ := hdec
    simp only [ops, hp, Log.applyAll_cons, Log.applyAll_nil, Log.apply]
    exact h.decide hlimit hp hs
  have hops : s.ops .pump = [] := by
    simp only [ops]
    split
    · next m hp => exact absurd ⟨m, hp⟩ hdec
    · rfl
  rw [hops, Log.applyAll_nil]
  obtain ⟨h1, h2, h3, h4, h5, h6, h7, h8, h9, h10⟩ := h
  rw [undecided] at h5
  -- a pump that is past no check, and one that has no message to decide on
  have hpass : false = true → s.refused = none := fun hf => absurd hf Bool.false_ne_true
  have hnone : ∀ {P : InboundMessage → Prop}, ∀ m ∈ [], P m := List.forall_mem_nil _
  simp only [step, pumpStep] at hs
  split at hs
  case h_1 | h_2 => cases hs
  case h_3 hp | h_9 hp | h_10 hp | h_11 hp =>
    cases hs
    rw [hp] at h3 h5 h6 h8
    exact ⟨h1, h2, h3, h4, h5, h6, h7, h8, hpass, hnone⟩
  case h_8 m hp =>
    cases hs
    rw [hp] at h3 h5 h6 h8
    refine ⟨h1, h2, ?_, h4, h5, h6, h7, h8, hpass, hnone⟩
    rw [h3]
    simp [Pump.admitted, inHand]
  case h_4 m hp =>
    cases hs
    rw [hp] at h3 h5 h6 h8 h9 h10
    cases ho : s.budget.overflowed with
    | true =>
      -- after a refusal this message is refused too
      have hr : s.refused ≠ none := by
        intro hr
        rw [hr, ho] at h8
        cases h8
      rw [if_neg hr, preceding] at h5
      exact ⟨h1, h2, h3, h4, by simpa [undecided, preceding, hr] using h5, h6, h7, h8, hpass, hnone⟩
    | false =>
      have hr : s.refused = none := by
        rw [ho] at h8
        exact Option.isNone_iff_eq_none.1 (Option.isSome_eq_false_iff.1 h8)
      exact ⟨h1, h2, h3, h4, h5, h6, h7, h8, fun _ => hr, h10⟩
  case h_5 m hp => exact absurd ⟨m, hp⟩ hdec
  case h_6 m hp =>
    cases hs
    rw [hp] at h3 h5 h6 h8
    refine ⟨h1, h2, h3, h4, h5, h6, h7, ?_, hpass, hnone⟩
    rw [h8]
    simp [Pump.latching]
  case h_7 m hp =>
    cases hs
    rw [hp] at h3 h5 h6 h8 h9
    simp only [Pump.uncounted] at h6
    have hadd : fetchAdd s.budget.buffered m.len = s.budget.buffered + m.len := by
      refine fetchAdd_of_le (Nat.le_trans ?_ hlimit)
      rw [h6]
      exact q.bound
    refine ⟨h1, h2, h3, h4, h5, ?_, ?_, h8, h9, hnone⟩
    · rw [← h6]
      exact hadd
    · simp only [hadd]
      omega

/-- A step that changes neither the budget nor the pump, and keeps what is in a hand or queued. -/
theorem Refines.frame (h : s.Refines q) (hb : s'.budget = s.budget) (hp : s'.pump = s.pump)
    (hh : s'.inHand ++ s'.queue = s.inHand ++ s.queue)
    (hhist : s'.polled = s.polled ∧ s'.refused = s.refused ∧ s'.reserved = s.reserved ∧
      s'.released = s.released ∧ s'.delivered = s.delivered) : s'.Refines q := by
  obtain ⟨h1, h2, h3, h4, h5, h6, h7, h8, h9, h10⟩ := h
  obtain ⟨g1, g2, g3, g4, g5⟩ := hhist
  refine ⟨by rw [hb]; exact h1, by rw [g5]; exact h2, by rw [hh, hp]; exact h3,
    by rw [g2]; exact h4, ?_, by rw [hb, hp]; exact h6, by rw [hb, g4, g3]; exact h7,
    by rw [hb, hp, g2]; exact h8, by rw [hp, g2]; exact h9, by rw [hb, hh, hp, g1]; exact h10⟩
  rw [preceding, undecided, g1, g2, hp]
  exact h5

/-- A reader receives. -/
theorem Refines.receive (h : s.Refines q) (hs : s.step .receive = some s') : s'.Refines q := by
  simp only [step] at hs
  split at hs
  · next hg =>
    split at hs
    · next m rest hq =>
      cases hs
      exact h.frame rfl rfl (by simp [inHand, hg, hq]) ⟨rfl, rfl, rfl, rfl, rfl⟩
    · split at hs
      · cases hs
        exact h.frame rfl rfl (by simp [inHand, hg]) ⟨rfl, rfl, rfl, rfl, rfl⟩
      · cases hs
  · cases hs

/-- A reader returns. -/
theorem Refines.finish (hlimit : limit ≤ usizeMax) (h : s.Refines q)
    (hs : s.step .finish = some s') : s'.Refines (q.applyAll (s.ops .finish)) := by
  simp only [step] at hs
  split at hs
  · next m hg =>
    cases hs
    have hle := h.buffered_le hlimit
    have hunc := s.pump.uncounted_le
    obtain ⟨h1, h2, h3, h4, h5, h6, h7, h8, h9, h10⟩ := h
    have hhand : s.inHand = [m] := by simp only [inHand, hg]
    have hheld : q.held = m :: (s.queue ++ s.pump.admitted) := by
      rw [h3, hhand]
      rfl
    obtain ⟨ht, hh, hsh⟩ := Log.take_cons hheld
    rw [hheld, load_cons, load_append] at h6
    -- the message in hand is on the counter
    have hsub : fetchSub s.budget.buffered m.len = s.budget.buffered - m.len :=
      fetchSub_of_le (by omega) hle
    simp only [ops, hg, Log.applyAll_cons, Log.applyAll_nil, Log.apply]
    refine ⟨h1, ?_, hh, hsh.trans h4, ?_, ?_, ?_, h8, h9, fun m' hm' => ⟨(h10 m' hm').1, ?_⟩⟩
    · rw [ht, h2]
      simp [delivered, Except.toOption, List.filterMap_append]
    · rw [Log.accepted_take]
      exact h5
    · rw [hh, load_append]
      show fetchSub s.budget.buffered m.len + s.pump.uncounted = _
      omega
    · show fetchSub s.budget.buffered m.len + (s.released + m.len) = s.reserved
      omega
    · intro hl
      have hfits := (h10 m' hm').2 hl
      rw [hhand, List.append_assoc, List.singleton_append, load_cons] at hfits
      show load InboundMessage.len ([] ++ s.queue ++ [m']) ≤ usizeMax
      rw [List.nil_append]
      omega
  · next hg =>
    cases hs
    simp only [ops, hg, Log.applyAll_nil]
    exact h.frame rfl rfl (by simp [inHand, hg])
      ⟨rfl, rfl, rfl, rfl, by simp [delivered, Except.toOption]⟩
  · cases hs

/-- Every step of the pump, of a reader or of the wiring task is a step of the log, or none. -/
theorem Refines.step (hlimit : limit ≤ usizeMax) (h : s.Refines q) (hs : s.step a = some s') :
    s'.Refines (q.applyAll (s.ops a)) := by
  cases a with
  | poll e => exact h.poll hs
  | pump => exact h.pump hlimit hs
  | receive => exact h.receive hs
  | finish => exact h.finish hlimit hs
  | wire =>
    simp only [Pumped.step] at hs
    split at hs
    · split at hs <;> cases hs <;> exact h.frame rfl rfl rfl ⟨rfl, rfl, rfl, rfl, rfl⟩
    · cases hs
  | read => cases hs; exact h.frame rfl rfl rfl ⟨rfl, rfl, rfl, rfl, rfl⟩
  | abandon =>
    simp only [Pumped.step] at hs
    split at hs
    · cases hs; exact h.frame rfl rfl rfl ⟨rfl, rfl, rfl, rfl, rfl⟩
    · cases hs
  | lock | cancel =>
    simp only [Pumped.step] at hs
    split at hs
    · next hg =>
      cases hs
      exact h.frame rfl rfl (by simp [inHand, hg]) ⟨rfl, rfl, rfl, rfl, rfl⟩
    · cases hs

/-- A run of the queue is a run of the log. -/
theorem Refines.run (hlimit : limit ≤ usizeMax) (h : s.Refines q) {as : List PumpedAct}
    (hr : Runs.run Pumped.step s as = some s') : ∃ ops, s'.Refines (q.applyAll ops) :=
  Runs.follows (R := Refines) (f := Log.apply)
    (fun s _ a _ h hs => ⟨s.ops a, h.step hlimit hs⟩) h hr

/-- A reservation that nothing interrupts is `reserve`: the pump then sends the message, or closes
the channel. -/
theorem reserve_uninterrupted {m : InboundMessage} (hp : s.pump = .reserving m .loadOverflowed) :
    ∃ n refused reserved, Runs.run step s (List.replicate n .pump) = some
      { s with
        budget := (s.budget.reserve m.len).2
        pump := if (s.budget.reserve m.len).1 then .sending m else .closing
        refused
        reserved } := by
  cases ho : s.budget.overflowed with
  | true =>
    refine ⟨1, s.refused, s.reserved, ?_⟩
    simp [Runs.run, step, pumpStep, InboundBudget.reserve, hp, ho]
  | false =>
    cases hex : s.budget.exceeds m.len with
    | true =>
      refine ⟨3, some (s.refused.getD s.polled.dropLast), s.reserved, ?_⟩
      simp [Runs.run, step, pumpStep, InboundBudget.reserve, hp, ho, hex]
    | false =>
      refine ⟨3, s.refused, s.reserved + m.len, ?_⟩
      simp [Runs.run, step, pumpStep, InboundBudget.reserve, hp, ho, hex]

/-! ## The end of the queue and the wiring -/

/-- `next` returned `None`, to a reader that still holds the mutex or earlier. -/
def GaveNone (s : Pumped) : Prop :=
  s.guard = some .ended ∨ ∃ e, .error e ∈ s.returned

/-- The pump has dropped the open signal's sender. -/
def PumpEnded (s : Pumped) : Prop := s.pump = .dropping ∨ s.pump = .gone

/-- What the end of the queue and the wiring say of the pump. -/
structure Signalled (s : Pumped) : Prop where
  drained : s.GaveNone → s.pump = .gone ∧ s.queue = [] ∧ s.inHand = []
  errors : ∀ e, .error e ∈ s.returned →
    e = if s.budget.overflowed then .receiveBufferOverflow else .closed
  opening : s.pump = .opening → .onOpen ∈ s.polled
  held : s.openSignal = .held → (.onOpen ∈ s.polled → s.pump = .opening) ∧ ¬ s.PumpEnded
  sent : s.openSignal = .sent → .onOpen ∈ s.polled
  dropped : s.openSignal = .dropped → .onOpen ∉ s.polled ∧ s.PumpEnded
  wiredOk : s.wired = some (.ok ()) → s.openSignal = .sent
  wiredError : ∀ e, s.wired = some (.error e) → e = .closed ∧ s.openSignal = .dropped

theorem Signalled.start (limit : Nat) : (Pumped.start limit).Signalled where
  drained h := h.elim nofun fun ⟨_, h⟩ => nomatch h
  errors _ h := nomatch h
  opening h := nomatch h
  held _ := ⟨nofun, fun h => h.elim nofun nofun⟩
  sent h := nomatch h
  dropped h := nomatch h
  wiredOk h := nomatch h
  wiredError _ h := nomatch h

/-- The pump polls. -/
theorem Signalled.poll (h : s.Signalled) {e : Option DataChannelEvent}
    (hs : s.step (.poll e) = some s') : s'.Signalled := by
  obtain ⟨h1, h2, h3, h4, h5, h6, h7, h8⟩ := h
  simp only [step] at hs
  split at hs
  · next hg =>
    cases hs
    have hlive : ¬ s.PumpEnded := by
      rw [PumpEnded, hg.1]
      exact fun h => h.elim nofun nofun
    have hopened : .onOpen ∈ e.toList → afterPoll e = .opening := by
      intro h
      rw [Option.mem_toList] at h
      rw [h]
      rfl
    have hended : ¬ (afterPoll e = .dropping ∨ afterPoll e = .gone) := by
      cases e with
      | none => exact fun h => h.elim nofun nofun
      | some e => cases e <;> exact fun h => h.elim nofun nofun
    refine ⟨fun hn => absurd (.inr (h1 hn).1) hlive, h2, ?_,
      fun hh => ⟨?_, hended⟩, fun hsig => List.mem_append_left _ (h5 hsig),
      fun hd => absurd (h6 hd).2 hlive, h7, h8⟩
    · intro ho
      refine List.mem_append_right _ ?_
      cases e with
      | none => cases ho
      | some e =>
        cases e with
        | onOpen => exact List.mem_singleton_self _
        | onMessage | onClose | other => cases ho
    · intro ho
      rcases List.mem_append.1 ho with ho | ho
      · have := (h4 hh).1 ho
        rw [hg.1] at this
        cases this
      · exact hopened ho
  · cases hs

/-- A step of the pump within its loop that touches neither signal. -/
theorem Signalled.work (h : s.Signalled) (hp : s.pump.working = true) (hp' : s'.pump.working = true)
    (heq : s'.openSignal = s.openSignal ∧ s'.wired = s.wired ∧ s'.polled = s.polled ∧
      s'.returned = s.returned ∧ s'.guard = s.guard) : s'.Signalled := by
  obtain ⟨h1, h2, h3, h4, h5, h6, h7, h8⟩ := h
  obtain ⟨g1, g2, g3, g4, g5⟩ := heq
  have hnone : ¬ s.GaveNone := fun hn => by
    rw [(h1 hn).1] at hp
    cases hp
  have hlive : ∀ {t : Pumped}, t.pump.working = true → ¬ t.PumpEnded ∧ t.pump ≠ .opening := by
    intro t ht
    refine ⟨?_, ?_⟩
    · intro hn
      rcases hn with hn | hn <;> rw [hn] at ht <;> cases ht
    · intro ho
      rw [ho] at ht
      cases ht
  refine ⟨fun hn => absurd ?_ hnone, ?_, fun ho => absurd ho (hlive hp').2, ?_, ?_, ?_, ?_, ?_⟩
  · rwa [GaveNone, g4, g5] at hn
  · intro e he
    rw [g4] at he
    exact absurd (.inr ⟨e, he⟩) hnone
  · intro hh
    rw [g1] at hh
    refine ⟨?_, (hlive hp').1⟩
    intro ho
    rw [g3] at ho
    exact absurd ((h4 hh).1 ho) (hlive hp).2
  · intro hs
    rw [g3]
    exact h5 (g1 ▸ hs)
  · intro hd
    exact absurd (h6 (g1 ▸ hd)).2 (hlive hp).1
  · intro hw
    rw [g1]
    exact h7 (g2 ▸ hw)
  · intro e he
    rw [g1]
    exact h8 e (g2 ▸ he)

/-- The pump takes its next step: it sends the open signal once, or drops it at its end. -/
theorem Signalled.pump (h : s.Signalled) (hs : s.step .pump = some s') : s'.Signalled := by
  simp only [step, pumpStep] at hs
  split at hs
  case h_1 | h_2 => cases hs
  case h_5 m hp =>
    have hwork : s.pump.working = true := by rw [hp]; rfl
    split at hs <;> cases hs <;> exact h.work hwork rfl ⟨rfl, rfl, rfl, rfl, rfl⟩
  case h_4 m hp =>
    have hwork : s.pump.working = true := by rw [hp]; rfl
    cases hs
    refine h.work hwork ?_ ⟨rfl, rfl, rfl, rfl, rfl⟩
    simp only
    split <;> rfl
  case h_6 m hp | h_7 m hp | h_8 m hp | h_9 hp =>
    have hwork : s.pump.working = true := by rw [hp]; rfl
    cases hs
    exact h.work hwork rfl ⟨rfl, rfl, rfl, rfl, rfl⟩
  case h_3 hp =>
    cases hs
    obtain ⟨h1, h2, h3, h4, h5, h6, h7, h8⟩ := h
    have hon := h3 hp
    have hnd : s.openSignal ≠ .dropped := fun hd => (h6 hd).1 hon
    have hsent : (if s.openSignal = .held then .sent else s.openSignal) = OpenSignal.sent := by
      cases hsig : s.openSignal with
      | held | sent => rfl
      | dropped => exact absurd hsig hnd
    rw [hsent]
    refine ⟨?_, h2, nofun, nofun, fun _ => hon, nofun, fun _ => rfl, ?_⟩
    · intro hn
      have := (h1 hn).1
      rw [hp] at this
      cases this
    · intro e he
      exact absurd (h8 e he).2 hnd
  case h_10 hp =>
    cases hs
    obtain ⟨h1, h2, h3, h4, h5, h6, h7, h8⟩ := h
    have hnone : ¬ s.GaveNone := fun hn => by
      have := (h1 hn).1
      rw [hp] at this
      cases this
    cases hsig : s.openSignal with
    | held =>
      have hno : .onOpen ∉ s.polled := fun ho => by
        have := (h4 hsig).1 ho
        rw [hp] at this
        cases this
      refine ⟨fun hn => absurd hn hnone, h2, nofun, nofun, nofun, fun _ => ⟨hno, .inl rfl⟩, ?_, ?_⟩
      · intro hw
        exact absurd (hsig.symm.trans (h7 hw)) nofun
      · intro e he
        exact absurd (hsig.symm.trans (h8 e he).2) nofun
    | sent =>
      refine ⟨fun hn => absurd hn hnone, h2, nofun, nofun, fun _ => h5 hsig, nofun, fun _ => rfl,
        ?_⟩
      intro e he
      exact absurd (hsig.symm.trans (h8 e he).2) nofun
    | dropped =>
      have := (h6 hsig).2
      rw [PumpEnded, hp] at this
      exact absurd this fun h => h.elim nofun nofun
  case h_11 hp =>
    cases hs
    obtain ⟨h1, h2, h3, h4, h5, h6, h7, h8⟩ := h
    refine ⟨?_, h2, nofun, fun hh => absurd (.inl hp) (h4 hh).2, h5,
      fun hd => ⟨(h6 hd).1, .inr rfl⟩, h7, h8⟩
    intro hn
    have := (h1 hn).1
    rw [hp] at this
    cases this

/-- Once the pump is gone and the queue is drained, only readers step, and none of them receives. -/
theorem Signalled.step (h : s.Signalled) (hs : s.step a = some s') : s'.Signalled := by
  obtain ⟨h1, h2, h3, h4, h5, h6, h7, h8⟩ := id h
  cases a with
  | poll e => exact h.poll hs
  | pump => exact h.pump hs
  | wire =>
    simp only [Pumped.step] at hs
    split at hs
    · split at hs
      · cases hs
      · next hsig =>
        cases hs
        exact ⟨h1, h2, h3, h4, h5, h6, fun _ => hsig, nofun⟩
      · next hsig =>
        cases hs
        exact ⟨h1, h2, h3, h4, h5, h6, nofun, fun e he => ⟨by cases he; rfl, hsig⟩⟩
    · cases hs
  | read => cases hs; exact ⟨h1, h2, h3, h4, h5, h6, h7, h8⟩
  | abandon =>
    simp only [Pumped.step] at hs
    split at hs
    · cases hs; exact ⟨h1, h2, h3, h4, h5, h6, h7, h8⟩
    · cases hs
  | lock | cancel =>
    simp only [Pumped.step] at hs
    split at hs
    · cases hs
      refine ⟨?_, h2, h3, h4, h5, h6, h7, h8⟩
      intro hn
      obtain ⟨hp, hq, -⟩ := h1 (.inr (hn.resolve_left nofun))
      exact ⟨hp, hq, rfl⟩
    · cases hs
  | receive =>
    simp only [Pumped.step] at hs
    split at hs
    · split at hs
      · next m rest hq =>
        cases hs
        refine ⟨?_, h2, h3, h4, h5, h6, h7, h8⟩
        intro hn
        obtain ⟨-, hq', -⟩ := h1 (.inr (hn.resolve_left nofun))
        rw [hq] at hq'
        cases hq'
      · next hq =>
        split at hs
        · next hgone =>
          cases hs
          exact ⟨fun _ => ⟨hgone, hq, rfl⟩, h2, h3, h4, h5, h6, h7, h8⟩
        · cases hs
    · cases hs
  | finish =>
    simp only [Pumped.step] at hs
    split at hs
    · next m hg =>
      cases hs
      refine ⟨?_, ?_, h3, h4, h5, h6, h7, h8⟩
      · intro hn
        obtain ⟨e, he⟩ := hn.resolve_left nofun
        rcases List.mem_append.1 he with he | he
        · obtain ⟨hp, hq, -⟩ := h1 (.inr ⟨e, he⟩)
          exact ⟨hp, hq, rfl⟩
        · cases List.mem_singleton.1 he
      · intro e he
        rcases List.mem_append.1 he with he | he
        · exact h2 e he
        · cases List.mem_singleton.1 he
    · next hg =>
      cases hs
      refine ⟨?_, ?_, h3, h4, h5, h6, h7, h8⟩
      · intro _
        obtain ⟨hp, hq, -⟩ := h1 (.inl hg)
        exact ⟨hp, hq, rfl⟩
      · intro e he
        rcases List.mem_append.1 he with he | he
        · exact h2 e he
        · cases List.mem_singleton.1 he
          rfl
    · cases hs

/-! ## The accounting -/

/-- The first refusal stays the first. -/
theorem refused_step {es : List DataChannelEvent} (hr : s.refused = some es)
    (hs : s.step a = some s') : s'.refused = some es := by
  cases a with
  | pump =>
    simp only [Pumped.step, pumpStep] at hs
    split at hs
    case h_1 | h_2 => cases hs
    case h_5 =>
      split at hs <;> cases hs
      · simp [hr]
      · exact hr
    all_goals cases hs; exact hr
  | wire =>
    simp only [Pumped.step] at hs
    split at hs
    · split at hs <;> cases hs <;> exact hr
    · cases hs
  | read => cases hs; exact hr
  | poll | abandon | lock | cancel =>
    simp only [Pumped.step] at hs
    split at hs <;> cases hs
    exact hr
  | receive =>
    simp only [Pumped.step] at hs
    split at hs
    · split at hs
      · cases hs; exact hr
      · split at hs <;> cases hs
        exact hr
    · cases hs
  | finish =>
    simp only [Pumped.step] at hs
    split at hs <;> cases hs <;> exact hr

/-- The queue's accounting. The counter is what was reserved and not released, it is within the
limit, and no release wraps it; `next` returns a prefix of the messages polled before the first
refused one, all of them once nothing is in flight or queued; `None` comes after the pump has gone
and the backlog is drained; and the wiring resolves with what the pump polled, `Ok` when that holds
an `OnOpen` and `Closed` when the pump has ended without one. -/
structure Accounted (s : Pumped) (limit : Nat) : Prop where
  conserved : s.budget.buffered + s.released = s.reserved
  within : s.budget.buffered ≤ limit
  releases : ∀ m ∈ s.inHand, m.len ≤ s.budget.buffered
  delivered : s.delivered <+: messages s.preceding
  drained : s.inHand ++ s.queue ++ s.pump.admitted ++ s.undecided = [] →
    s.delivered = messages s.preceding
  ended : s.GaveNone →
    s.pump = .gone ∧ s.queue = [] ∧ s.inHand = [] ∧ s.delivered = messages s.preceding
  verdict : ∀ e, .error e ∈ s.returned →
    e = if s.refused.isSome then .receiveBufferOverflow else .closed
  wiredOk : s.wired = some (.ok ()) → .onOpen ∈ s.polled
  wiredError : ∀ e, s.wired = some (.error e) → e = .closed ∧ .onOpen ∉ s.polled ∧ s.PumpEnded
  opens : s.wired = none → .onOpen ∈ s.polled → s.pump ≠ .opening →
    s.step .wire = some { s with wired := some (.ok ()) }
  closes : s.wired = none → .onOpen ∉ s.polled → s.PumpEnded →
    s.step .wire = some { s with wired := some (.error .closed) }

/-- A refining queue whose signals are in order keeps its accounts. -/
theorem Refines.accounted (h : s.Refines q) (hsig : s.Signalled) : s.Accounted limit := by
  have hprefix : s.delivered <+: messages s.preceding := by
    rw [h.decided, Log.accepted, h.taken, List.append_assoc]
    exact List.prefix_append _ _
  have hdrained : s.inHand ++ s.queue ++ s.pump.admitted ++ s.undecided = [] →
      s.delivered = messages s.preceding := by
    intro hnil
    rw [h.decided, Log.accepted, h.taken, h.held, List.append_assoc, hnil, List.append_nil]
  have hreleases : ∀ m ∈ s.inHand, m.len ≤ s.budget.buffered := by
    intro m hm
    have hhand : s.inHand = [m] := by
      unfold inHand at hm ⊢
      split at hm
      · rw [List.mem_singleton.1 hm]
      · cases hm
    have hcounted := h.counted
    have hunc := s.pump.uncounted_le
    rw [h.held, hhand, load_append, load_append, load_cons] at hcounted
    omega
  have hgone : s.GaveNone → s.pump = .gone ∧ s.queue = [] ∧ s.inHand = [] ∧
      s.delivered = messages s.preceding := by
    intro hn
    obtain ⟨hp, hq, hh⟩ := hsig.drained hn
    refine ⟨hp, hq, hh, hdrained ?_⟩
    simp [hp, hq, hh, undecided, Pump.admitted, Pump.deciding]
  refine ⟨h.conserved, h.within, hreleases, hprefix, hdrained, hgone, ?_,
    fun hw => hsig.sent (hsig.wiredOk hw), ?_, ?_, ?_⟩
  · intro e he
    have hlat := h.latched
    rw [(hgone (.inr ⟨e, he⟩)).1] at hlat
    rw [hsig.errors e he, hlat]
    simp [Pump.latching]
  · intro e he
    obtain ⟨rfl, hd⟩ := hsig.wiredError e he
    exact ⟨rfl, hsig.dropped hd⟩
  · intro hw ho hp
    cases hs : s.openSignal with
    | held => exact absurd ((hsig.held hs).1 ho) hp
    | sent => simp [Pumped.step, hw, hs]
    | dropped => exact absurd ho (hsig.dropped hs).1
  · intro hw ho hp
    cases hs : s.openSignal with
    | held => exact absurd hp (hsig.held hs).2
    | sent => exact absurd (hsig.sent hs) ho
    | dropped => simp [Pumped.step, hw, hs]

/-- After a refusal readers get only what was in a hand or queued when it happened. -/
theorem Refines.after_refusal (hlimit : limit ≤ usizeMax) (h : s.Refines q) (hr : s.refused ≠ none)
    {as : List PumpedAct} (hrun : Runs.run Pumped.step s as = some s') :
    s'.delivered <+: s.delivered ++ (s.inHand ++ s.queue) := by
  obtain ⟨ops, h'⟩ := h.run hlimit hrun
  have hshut : q.shut = true := by
    rw [h.shut]
    exact Option.isSome_iff_ne_none.2 hr
  have hadm : s.pump.admitted = [] := by
    cases hp : s.pump.passing with
    | true => exact absurd (h.passing hp) hr
    | false => exact Pump.admitted_of_not_passing hp
  have haccepted := (Log.applyAll_of_shut hshut ops).2
  rw [Log.accepted, Log.accepted, h'.taken, h.taken, h.held, hadm, List.append_nil] at haccepted
  rw [← haccepted]
  exact List.prefix_append _ _

end Pumped

/-- **The inbound queue is bounded and exact over every run.** In every state that a run of a
channel's pump, readers and wiring task reaches, the queue keeps its accounts; and once a
reservation was refused, the refusal stays the first, and nothing is delivered any more but what was
in a reader's hand or queued then. -/
theorem queue_accounting {limit : Nat} (hlimit : limit ≤ usizeMax) {as : List PumpedAct}
    {s : Pumped}
    (h : Runs.run Pumped.step (.start limit) as = some s) :
    s.Accounted limit ∧
      ∀ es, s.refused = some es → ∀ bs t, Runs.run Pumped.step s bs = some t →
        t.refused = some es ∧ t.delivered <+: s.delivered ++ (s.inHand ++ s.queue) := by
  obtain ⟨ops, href⟩ := (Pumped.Refines.start limit).run hlimit h
  have hsig : s.Signalled :=
    Runs.invariant (I := Pumped.Signalled) (fun _ _ _ hi hs => hi.step hs) (.start limit) h
  refine ⟨href.accounted hsig, fun es hes bs t hrun => ⟨?_, ?_⟩⟩
  · exact Runs.invariant (I := fun s : Pumped => s.refused = some es)
      (fun _ _ _ hr hs => Pumped.refused_step hr hs) hes hrun
  · exact href.after_refusal hlimit (by rw [hes]; nofun) hrun

/-- A channel with a bound of four bytes that opens, receives two bytes, refuses three, closes, and
is read to its end. -/
def overflowRun : List PumpedAct :=
  [.poll (some .onOpen), .pump, .wire, .poll (some (.onMessage ⟨true, [104, 105]⟩)), .pump, .pump,
    .pump, .pump, .poll (some (.onMessage ⟨false, [1, 2, 3]⟩)), .pump, .pump, .pump, .pump, .read,
    .lock, .receive, .finish, .poll (some .onClose), .pump, .pump, .read, .lock, .receive, .finish]

/-- The reader of that channel gets the two bytes and then the overflow. -/
theorem queue_accounting_of_overflow :
    ∃ s, Runs.run Pumped.step (.start 4) overflowRun = some s ∧
      s.returned = [.ok ⟨true, [104, 105]⟩, .error .receiveBufferOverflow] ∧ s.Accounted 4 := by
  have hacc := fun s (h : Runs.run Pumped.step (.start 4) overflowRun = some s) =>
    (queue_accounting (by decide) h).1
  exact ⟨_, rfl, rfl, hacc _ rfl⟩

end WebrtcDatachannels.Host
