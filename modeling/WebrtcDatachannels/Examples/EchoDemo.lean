import WebrtcDatachannels.Lib.LittleEndian
import WebrtcDatachannels.Lib.Runs
import WebrtcDatachannels.Suite.Exchange

/-!
# The echo demo

`examples/echo-demo/src/lib.rs`. Three loops run beside each other in a `join!`: one sends at the
near end of an ordered channel, one echoes at the far end, and one receives what comes back. A send
may return any error at any time; a receive fails once its end has closed, and what is in flight
then may be lost from any message on. The statistics count what has come back, which is the messages
in the order of their indices (`demo_stats`). No loop closes the channel when it fails, so the other
two wait for it on an open one (`demo_returns_iff`).
-/

namespace WebrtcDatachannels.Examples

open LittleEndian
open Suite (messageBytes)

/-- A `size`-byte message tagged with its index. Source: `make_message`. -/
def makeMessage (size : Nat) (index : UInt32) : Bytes :=
  (List.range size).map fun k => (toLe 4 index.toNat).getD (k % 4) 0

/-- The first messages. -/
def messages (size : UInt32) (n : Nat) : List Message :=
  (List.range n).map fun i => .binary (makeMessage size.toNat (UInt32.ofNat i))

/-- Source: `DemoStats`. -/
structure DemoStats where
  messagesSent : UInt32
  messagesReceived : UInt32
  bytesEchoed : UInt64
deriving DecidableEq, Repr

/-- The ends of the channel. -/
inductive End where
  | near
  | far
deriving DecidableEq, Repr

/-- The three loops and the channel between them: `sent` and `sendFailed` are the sending loop's,
`turns`, `holding` and `echoStopped` the echoing one's, and `received` is what the receiving loop
has counted. -/
structure Loops where
  sent : Nat
  sendFailed : Option Error
  forth : List Message
  turns : Nat
  holding : Option Message
  echoStopped : Option (Except Error Unit)
  back : List Message
  received : List Message
  messagesReceived : UInt32
  bytesEchoed : UInt64
  recvStopped : Bool
  nearClosed : Bool
  farClosed : Bool
deriving DecidableEq

namespace Loops

/-- What can happen: the calls of the loops return, or the channel closes at an end and leaves some
of what is in flight. -/
inductive Event where
  | sent (r : Except Error Unit)
  | farReceived
  | farFailed
  | echoed (r : Except Error Unit)
  | nearReceived
  | nearFailed
  | closed (e : End) (forth back : Nat)

/-- A call of a loop returns. -/
def Event.own : Event → Bool
  | .closed .. => false
  | _ => true

def start : Loops where
  sent := 0
  sendFailed := none
  forth := []
  turns := 0
  holding := none
  echoStopped := none
  back := []
  received := []
  messagesReceived := 0
  bytesEchoed := 0
  recvStopped := false
  nearClosed := false
  farClosed := false

/-- What a message that was sent adds to what is in flight. -/
def carried (s : Loops) (m : Message) : List Message :=
  if s.nearClosed || s.farClosed then [] else [m]

/-- The echoing loop waits for a message. -/
def awaits (count : UInt32) (s : Loops) : Bool :=
  s.echoStopped.isNone && s.holding.isNone && s.turns < count.toNat

/-- The receiving loop waits for a message. -/
def counts (count : UInt32) (s : Loops) : Bool := !s.recvStopped && s.messagesReceived < count

/-- Source: the loops of `run`. -/
def step (count size : UInt32) (s : Loops) : Event → Option Loops
  | .sent r =>
    if s.sendFailed.isNone && s.sent < count.toNat then
      match r with
      | .ok () =>
        let m := Message.binary (makeMessage size.toNat (UInt32.ofNat s.sent))
        some { s with sent := s.sent + 1, forth := s.forth ++ s.carried m }
      | .error e => some { s with sendFailed := some e }
    else none
  | .farReceived =>
    match s.forth with
    | m :: forth => if s.awaits count then some { s with forth, holding := some m } else none
    | [] => none
  | .farFailed =>
    if s.awaits count && s.farClosed then some { s with echoStopped := some (.ok ()) } else none
  | .echoed r =>
    match s.holding, r with
    | none, _ => none
    | some m, .ok () =>
      some { s with holding := none, turns := s.turns + 1, back := s.back ++ s.carried m }
    | some _, .error e => some { s with holding := none, echoStopped := some (.error e) }
  | .nearReceived =>
    match s.back with
    | m :: back =>
      if s.counts count then
        some { s with
          back
          received := s.received ++ [m]
          messagesReceived := s.messagesReceived + 1
          bytesEchoed := s.bytesEchoed + UInt64.ofNat (messageBytes m).length }
      else none
    | [] => none
  | .nearFailed =>
    if s.counts count && s.nearClosed then some { s with recvStopped := true } else none
  | .closed .near f b =>
    some { s with nearClosed := true, forth := s.forth.take f, back := s.back.take b }
  | .closed .far f b =>
    some { s with farClosed := true, forth := s.forth.take f, back := s.back.take b }

/-- All loops have ended. -/
def joined (count : UInt32) (s : Loops) : Bool :=
  (s.sendFailed.isSome || s.sent == count.toNat) &&
    (s.echoStopped.isSome || s.turns == count.toNat) &&
    (s.recvStopped || s.messagesReceived == count)

/-- What `run` returns. -/
def result (count : UInt32) (s : Loops) : Option (Except Error DemoStats) :=
  if s.joined count then
    match s.sendFailed, s.echoStopped with
    | some e, _ => some (.error e)
    | none, some (.error e) => some (.error e)
    | none, _ => some (.ok ⟨count, s.messagesReceived, s.bytesEchoed⟩)
  else none

/-- A send of the echoing loop has failed. -/
def echoFailed (s : Loops) : Bool :=
  match s.echoStopped with
  | some (.error _) => true
  | _ => false

/-- No send has failed. -/
def Unfailed (s : Loops) : Prop := s.sendFailed = none ∧ s.echoFailed = false

/-- Neither end has closed. -/
def Open (s : Loops) : Prop := s.nearClosed = false ∧ s.farClosed = false

/-- The calls that can still return. -/
def work (count : UInt32) (s : Loops) : Nat :=
  (if s.sendFailed.isSome then 0 else 4 * (count.toNat - s.sent)) + 3 * s.forth.length +
    2 * s.holding.toList.length + s.back.length + (if s.echoStopped.isSome then 0 else 1) +
    (if s.recvStopped then 0 else 1)

/-- What holds of the loops at any time. -/
structure Inv (count size : UInt32) (s : Loops) : Prop where
  order : s.received ++ s.back <+: messages size s.sent
  sent_le : s.sent ≤ count.toNat
  failed_lt : s.sendFailed.isSome → s.sent < count.toNat
  turns_le : (s.received ++ s.back).length ≤ s.turns ∧ s.turns ≤ count.toNat
  turn_lt : s.holding.isSome ∨ s.echoFailed = true → s.turns < count.toNat
  running : s.holding.isSome → s.echoStopped = none
  flight : s.Open → s.echoFailed = false →
    s.received ++ s.back ++ s.holding.toList ++ s.forth = messages size s.sent ∧
      (s.received ++ s.back).length = s.turns
  far : s.echoStopped = some (.ok ()) → s.farClosed = true
  near : s.recvStopped = true → s.nearClosed = true
  counted : s.messagesReceived.toNat = s.received.length
  bytes : s.bytesEchoed.toNat = s.received.length * size.toNat

section
variable {count size : UInt32} {s s' t : Loops} {a : Event} {as : List Event} {m : Message}

/-! ## Messages -/

@[simp] theorem length_messages (size : UInt32) (n : Nat) : (messages size n).length = n := by
  simp [messages]

theorem messages_succ (size : UInt32) (n : Nat) :
    messages size (n + 1) =
      messages size n ++ [.binary (makeMessage size.toNat (UInt32.ofNat n))] := by
  simp [messages, List.range_succ]

theorem length_of_mem_messages {n : Nat} (h : m ∈ messages size n) :
    (messageBytes m).length = size.toNat := by
  obtain ⟨i, -, rfl⟩ := List.mem_map.1 h
  simp [messageBytes, makeMessage]

/-! ## One step -/

/-- What one step does. -/
inductive Moves (count size : UInt32) (s : Loops) : Event → Loops → Prop
  | sent : s.sendFailed = none → s.sent < count.toNat →
      Moves count size s (.sent (.ok ()))
        { s with
          sent := s.sent + 1
          forth := s.forth ++
            s.carried (.binary (makeMessage size.toNat (UInt32.ofNat s.sent))) }
  | sendFailed (e : Error) : s.sendFailed = none → s.sent < count.toNat →
      Moves count size s (.sent (.error e)) { s with sendFailed := some e }
  | farReceived {m : Message} {forth : List Message} : s.forth = m :: forth →
      s.awaits count = true →
      Moves count size s .farReceived { s with forth, holding := some m }
  | farFailed : s.awaits count = true → s.farClosed = true →
      Moves count size s .farFailed { s with echoStopped := some (.ok ()) }
  | echoed {m : Message} : s.holding = some m →
      Moves count size s (.echoed (.ok ()))
        { s with holding := none, turns := s.turns + 1, back := s.back ++ s.carried m }
  | echoFailed (e : Error) {m : Message} : s.holding = some m →
      Moves count size s (.echoed (.error e))
        { s with holding := none, echoStopped := some (.error e) }
  | nearReceived {m : Message} {back : List Message} : s.back = m :: back →
      s.counts count = true →
      Moves count size s .nearReceived
        { s with
          back
          received := s.received ++ [m]
          messagesReceived := s.messagesReceived + 1
          bytesEchoed := s.bytesEchoed + UInt64.ofNat (messageBytes m).length }
  | nearFailed : s.counts count = true → s.nearClosed = true →
      Moves count size s .nearFailed { s with recvStopped := true }
  | nearClosed (f b : Nat) :
      Moves count size s (.closed .near f b)
        { s with nearClosed := true, forth := s.forth.take f, back := s.back.take b }
  | farClosed (f b : Nat) :
      Moves count size s (.closed .far f b)
        { s with farClosed := true, forth := s.forth.take f, back := s.back.take b }

theorem moves_of_step (h : step count size s a = some s') : Moves count size s a s' := by
  cases a with
  | sent r =>
    obtain ⟨hg, h⟩ := Option.ite_none_right_eq_some.1 h
    simp only [Bool.and_eq_true, Option.isNone_iff_eq_none, decide_eq_true_eq] at hg
    cases r with
    | ok u => cases h; exact .sent hg.1 hg.2
    | error e => cases h; exact .sendFailed e hg.1 hg.2
  | farReceived =>
    simp only [step] at h
    split at h
    · next hf =>
      obtain ⟨hw, h⟩ := Option.ite_none_right_eq_some.1 h
      cases h
      exact .farReceived hf hw
    · cases h
  | farFailed =>
    obtain ⟨hg, h⟩ := Option.ite_none_right_eq_some.1 h
    simp only [Bool.and_eq_true] at hg
    cases h
    exact .farFailed hg.1 hg.2
  | echoed r =>
    simp only [step] at h
    split at h
    · cases h
    · next hm => cases h; exact .echoed hm
    · next hm => cases h; exact .echoFailed _ hm
  | nearReceived =>
    simp only [step] at h
    split at h
    · next hb =>
      obtain ⟨hw, h⟩ := Option.ite_none_right_eq_some.1 h
      cases h
      exact .nearReceived hb hw
    · cases h
  | nearFailed =>
    obtain ⟨hg, h⟩ := Option.ite_none_right_eq_some.1 h
    simp only [Bool.and_eq_true] at hg
    cases h
    exact .nearFailed hg.1 hg.2
  | closed e f b =>
    cases e with
    | near => cases h; exact .nearClosed f b
    | far => cases h; exact .farClosed f b

theorem carried_of_open (h : s.Open) (m : Message) : s.carried m = [m] := by
  simp [carried, h.1, h.2]

theorem carried_of_not_open (h : ¬ s.Open) (m : Message) : s.carried m = [] := by
  rw [carried, if_pos]
  rw [Open, ← Bool.or_eq_false_iff] at h
  exact Bool.eq_true_of_not_eq_false h

theorem of_awaits (h : s.awaits count = true) :
    s.echoStopped = none ∧ s.holding = none ∧ s.turns < count.toNat := by
  simp only [awaits, Bool.and_eq_true, Option.isNone_iff_eq_none, decide_eq_true_eq] at h
  exact ⟨h.1.1, h.1.2, h.2⟩

theorem of_counts (h : s.counts count = true) :
    s.recvStopped = false ∧ s.messagesReceived < count := by
  simp only [counts, Bool.and_eq_true, Bool.not_eq_true', decide_eq_true_eq] at h
  exact h

theorem inv_start (count size : UInt32) : Inv count size start where
  order := List.prefix_rfl
  sent_le := Nat.zero_le _
  failed_lt h := by cases h
  turns_le := ⟨Nat.le_refl _, Nat.zero_le _⟩
  turn_lt h := by cases h with | inl h => cases h | inr h => cases h
  running h := by cases h
  flight _ _ := ⟨rfl, rfl⟩
  far h := by cases h
  near h := by cases h
  counted := rfl
  bytes := (Nat.zero_mul _).symm

/-- Counting a message does not overflow. -/
theorem counted_succ (h : Inv count size s) {back : List Message} (hb : s.back = m :: back)
    (hlt : s.messagesReceived < count) :
    (s.messagesReceived + 1).toNat = (s.received ++ [m]).length ∧
      (s.bytesEchoed + UInt64.ofNat (messageBytes m).length).toNat =
        (s.received ++ [m]).length * size.toNat := by
  have hmem : m ∈ messages size s.sent :=
    h.order.subset (List.mem_append_right _ (hb ▸ List.mem_cons_self))
  have hcount := UInt32.lt_iff_toNat_lt.1 hlt
  have hcount32 := count.toNat_lt
  have hsize32 := size.toNat_lt
  have hcounted := h.counted
  have hprod : (s.received.length + 1) * size.toNat ≤ (2 ^ 32 - 1) * (2 ^ 32 - 1) :=
    Nat.mul_le_mul (by omega) (by omega)
  rw [length_of_mem_messages hmem, List.length_append, List.length_singleton]
  constructor
  · rw [UInt32.toNat_add, hcounted]
    exact Nat.mod_eq_of_lt (by simp only [UInt32.reduceToNat]; omega)
  · rw [Nat.add_mul, Nat.one_mul] at hprod ⊢
    rw [UInt64.toNat_add, h.bytes, UInt64.toNat_ofNat_of_lt' (Nat.lt_trans hsize32 (by decide))]
    exact Nat.mod_eq_of_lt (by omega)

theorem Inv.move (h : Inv count size s) (hm : Moves count size s a s') : Inv count size s' := by
  cases hm with
  | sent hnone hlt =>
    refine { h with order := ?_, sent_le := hlt, failed_lt := ?_, flight := ?_ }
    · rw [messages_succ]
      exact h.order.trans (List.prefix_append _ _)
    · intro hs
      rw [hnone] at hs
      cases hs
    · intro (hopen : s.Open) hecho
      obtain ⟨hall, hturns⟩ := h.flight hopen hecho
      refine ⟨?_, hturns⟩
      rw [messages_succ, ← hall, carried_of_open hopen, List.append_assoc _ s.forth]
  | sendFailed e hnone hlt => exact { h with failed_lt := fun _ => hlt }
  | farReceived hf hw =>
    obtain ⟨hrun, hempty, hlt⟩ := of_awaits hw
    refine { h with turn_lt := fun _ => hlt, running := fun _ => hrun, flight := ?_ }
    intro (hopen : s.Open) hecho
    obtain ⟨hall, hturns⟩ := h.flight hopen hecho
    refine ⟨?_, hturns⟩
    rw [hempty, hf] at hall
    rw [← hall]
    simp
  | farFailed hw hclosed =>
    obtain ⟨-, hempty, hlt⟩ := of_awaits hw
    refine { h with
      turn_lt := fun _ => hlt
      running := ?_
      flight := ?_
      far := fun _ => hclosed }
    · intro hs
      rw [hempty] at hs
      cases hs
    · intro (hopen : s.Open) _
      exact absurd hclosed (by rw [hopen.2]; decide)
  | @echoed m hm =>
    have hsome : s.holding.isSome := by rw [hm]; rfl
    have hlt := h.turn_lt (.inl hsome)
    have hecho : s.echoFailed = false := by rw [echoFailed, h.running hsome]
    have hback : (s.received ++ (s.back ++ s.carried m)) <+: messages size s.sent ∧
        (s.received ++ (s.back ++ s.carried m)).length ≤ s.turns + 1 := by
      by_cases hopen : s.Open
      · obtain ⟨hall, hturns⟩ := h.flight hopen hecho
        rw [carried_of_open hopen, ← List.append_assoc]
        refine ⟨?_, by rw [List.length_append, hturns]; rfl⟩
        rw [← hall, hm]
        exact List.prefix_append _ _
      · rw [carried_of_not_open hopen, List.append_nil]
        exact ⟨h.order, Nat.le_succ_of_le h.turns_le.1⟩
    refine { h with
      order := hback.1
      turns_le := ⟨hback.2, hlt⟩
      turn_lt := ?_
      running := fun hs => by cases hs
      flight := ?_ }
    · intro hs
      obtain hs | (hs : s.echoFailed = true) := hs
      · cases hs
      · rw [hecho] at hs; cases hs
    · intro (hopen : s.Open) _
      obtain ⟨hall, hturns⟩ := h.flight hopen hecho
      rw [carried_of_open hopen, ← hall, hm, ← List.append_assoc, List.length_append, hturns]
      simp
  | echoFailed e hm =>
    have hlt := h.turn_lt (.inl (by rw [hm]; rfl))
    refine { h with
      turn_lt := fun _ => hlt
      running := fun hs => by cases hs
      flight := fun _ hecho => by cases hecho
      far := fun hs => by cases hs }
  | @nearReceived m back hb hw =>
    obtain ⟨hcounted, hbytes⟩ := counted_succ h hb (of_counts hw).2
    have hlist : s.received ++ [m] ++ back = s.received ++ s.back := by rw [hb]; simp
    refine { h with
      order := hlist ▸ h.order
      turns_le := hlist ▸ h.turns_le
      flight := ?_
      counted := hcounted
      bytes := hbytes }
    intro (hopen : s.Open) hecho
    exact hlist ▸ h.flight hopen hecho
  | nearFailed hw hclosed => exact { h with near := fun _ => hclosed }
  | nearClosed f b =>
    have hback : s.received ++ s.back.take b <+: s.received ++ s.back :=
      (List.prefix_append_right_inj _).2 (List.take_prefix b s.back)
    exact { h with
      order := hback.trans h.order
      turns_le := ⟨hback.length_le.trans h.turns_le.1, h.turns_le.2⟩
      flight := fun hopen => by cases hopen.1
      near := fun _ => rfl }
  | farClosed f b =>
    have hback : s.received ++ s.back.take b <+: s.received ++ s.back :=
      (List.prefix_append_right_inj _).2 (List.take_prefix b s.back)
    exact { h with
      order := hback.trans h.order
      turns_le := ⟨hback.length_le.trans h.turns_le.1, h.turns_le.2⟩
      flight := fun hopen => by cases hopen.2
      far := fun _ => rfl }

theorem inv_of_run (h : Runs.run (step count size) start as = some t) : Inv count size t :=
  Runs.invariant (fun _ _ _ hi hs => Inv.move hi (moves_of_step hs)) (inv_start count size) h

/-! ## What `run` returns -/

theorem of_result_ok {stats : DemoStats} (h : t.result count = some (.ok stats)) :
    t.joined count = true ∧ t.Unfailed ∧ stats = ⟨count, t.messagesReceived, t.bytesEchoed⟩ := by
  obtain ⟨hjoined, h⟩ := Option.ite_none_right_eq_some.1 h
  refine ⟨hjoined, ?_⟩
  cases hs : t.sendFailed with
  | some e => rw [hs] at h; cases h
  | none =>
    rw [hs] at h
    cases he : t.echoStopped with
    | none => rw [he] at h; cases h; exact ⟨⟨hs, by rw [echoFailed, he]⟩, rfl⟩
    | some r =>
      rw [he] at h
      cases r with
      | error e => cases h
      | ok u => cases h; exact ⟨⟨hs, by rw [echoFailed, he]⟩, rfl⟩

theorem of_joined (h : t.joined count = true) :
    (t.sendFailed = none → t.sent = count.toNat) ∧
      (t.echoStopped = none → t.turns = count.toNat) ∧
      (t.recvStopped = false → t.messagesReceived = count) := by
  simp only [joined, Bool.and_eq_true, Bool.or_eq_true, beq_iff_eq] at h
  obtain ⟨⟨hsend, hecho⟩, hrecv⟩ := h
  refine ⟨fun hn => ?_, fun hn => ?_, fun hn => ?_⟩
  · rw [hn] at hsend
    exact hsend.resolve_left (by decide)
  · rw [hn] at hecho
    exact hecho.resolve_left (by decide)
  · rw [hn] at hrecv
    exact hrecv.resolve_left (by decide)

/-- **What the statistics say.** All messages were sent, those that came back are the first ones in
order, and their number and bytes are counted without overflow; none is missing when the near end
has not closed. -/
theorem demo_stats (count size : UInt32) {stats : DemoStats}
    (h : Runs.run (step count size) start as = some t)
    (hr : t.result count = some (.ok stats)) :
    stats.messagesSent = count ∧ t.received <+: messages size count.toNat ∧
      stats.messagesReceived.toNat = t.received.length ∧
      stats.bytesEchoed.toNat = t.received.length * size.toNat ∧
      (t.nearClosed = false → t.received = messages size count.toNat) := by
  have hinv := inv_of_run h
  obtain ⟨hjoined, ⟨hsent, -⟩, rfl⟩ := of_result_ok hr
  obtain ⟨hall, -, hcount⟩ := of_joined hjoined
  have horder : t.received <+: messages size count.toNat := by
    rw [← hall hsent]
    exact (List.prefix_append _ _).trans hinv.order
  refine ⟨rfl, horder, hinv.counted, hinv.bytes, fun hopen => ?_⟩
  have hrun : t.recvStopped = false := by
    cases hs : t.recvStopped with
    | false => rfl
    | true => rw [hinv.near hs] at hopen; cases hopen
  refine horder.eq_of_length ?_
  rw [length_messages, ← hinv.counted, hcount hrun]

theorem demo_stats_of_two :
    let sends : List Event := [.sent (.ok ()), .sent (.ok ())]
    let echoes : List Event := [.farReceived, .echoed (.ok ()), .farReceived, .echoed (.ok ())]
    ∃ t stats, Runs.run (step 2 5) start (sends ++ echoes ++ [.nearReceived, .nearReceived]) =
        some t ∧ t.result 2 = some (.ok stats) ∧
      t.received = [.binary [0, 0, 0, 0, 0], .binary [1, 0, 0, 0, 1]] ∧
      stats.bytesEchoed.toNat = t.received.length * 5 := by
  intro sends echoes
  obtain ⟨t, h, hr⟩ : ∃ t, Runs.run (step 2 5) start
      (sends ++ echoes ++ [.nearReceived, .nearReceived]) = some t ∧
        t.result 2 = some (.ok ⟨2, 2, 10⟩) ∧
          t.received = [.binary [0, 0, 0, 0, 0], .binary [1, 0, 0, 0, 1]] :=
    ⟨_, rfl, by decide, by decide⟩
  exact ⟨t, _, h, hr.1, hr.2, (demo_stats 2 5 h hr.1).2.2.2.1⟩

/-! ## When `run` returns -/

theorem length_carried_le (s : Loops) (m : Message) : (s.carried m).length ≤ 1 := by
  unfold carried
  split <;> simp

/-- A call that returns leaves fewer to return. -/
theorem work_lt (hm : Moves count size s a s') (hown : a.own = true) :
    s'.work count < s.work count := by
  cases hm with
  | sent hnone hlt =>
    have hle := length_carried_le s (.binary (makeMessage size.toNat (UInt32.ofNat s.sent)))
    simp only [work, hnone, Option.isSome_none, List.length_append]
    simp only [Bool.false_eq_true, if_false]
    omega
  | sendFailed e hnone hlt =>
    simp only [work, hnone, Option.isSome_none, Option.isSome_some, if_true]
    simp only [Bool.false_eq_true, if_false]
    omega
  | farReceived hf hw =>
    obtain ⟨-, hempty, -⟩ := of_awaits hw
    simp only [work, hf, hempty, Option.toList_some, Option.toList_none, List.length_cons,
      List.length_nil]
    omega
  | farFailed hw hclosed =>
    simp only [work, (of_awaits hw).1, Option.isSome_none, Option.isSome_some, if_true]
    simp only [Bool.false_eq_true, if_false]
    omega
  | @echoed m hm =>
    have hle := length_carried_le s m
    simp only [work, hm, Option.toList_some, Option.toList_none, List.length_append,
      List.length_cons, List.length_nil]
    omega
  | echoFailed e hm =>
    simp only [work, hm, Option.toList_some, Option.toList_none, Option.isSome_some, if_true,
      List.length_cons, List.length_nil]
    omega
  | nearReceived hb hw =>
    simp only [work, hb, List.length_cons]
    omega
  | nearFailed hw hclosed =>
    simp only [work, (of_counts hw).1, if_true, Bool.false_eq_true, if_false]
    omega
  | nearClosed | farClosed => cases hown

/-- What the loops wait for when no call can return. -/
structure Waits (count : UInt32) (s : Loops) : Prop where
  sends : s.sendFailed.isSome = true ∨ s.sent = count.toNat
  holds : s.holding = none
  far : s.awaits count = true → s.forth = [] ∧ s.farClosed = false
  near : s.counts count = true → s.back = [] ∧ s.nearClosed = false

theorem waits_of_stuck (h : Inv count size s)
    (hstuck : ∀ a : Event, a.own = true → step count size s a = none) : s.Waits count where
  sends := by
    by_contra hno
    obtain ⟨hsome, hne⟩ := not_or.1 hno
    have hlt : s.sent < count.toNat := Nat.lt_of_le_of_ne h.sent_le hne
    have hnone : s.sendFailed = none := by simpa using hsome
    have hstep := hstuck (.sent (.ok ())) rfl
    simp [step, hnone, hlt] at hstep
  holds := by
    cases hm : s.holding with
    | none => rfl
    | some m =>
      have hstep := hstuck (.echoed (.ok ())) rfl
      simp [step, hm] at hstep
  far hw := by
    constructor
    · cases hf : s.forth with
      | nil => rfl
      | cons m forth =>
        have hstep := hstuck .farReceived rfl
        simp [step, hf, hw] at hstep
    · cases hc : s.farClosed with
      | false => rfl
      | true =>
        have hstep := hstuck .farFailed rfl
        simp [step, hw, hc] at hstep
  near hw := by
    constructor
    · cases hb : s.back with
      | nil => rfl
      | cons m back =>
        have hstep := hstuck .nearReceived rfl
        simp [step, hb, hw] at hstep
    · cases hc : s.nearClosed with
      | false => rfl
      | true =>
        have hstep := hstuck .nearFailed rfl
        simp [step, hw, hc] at hstep

/-- The loops have ended when all the messages went round, as far as the loops did not stop. -/
theorem joined_of (h : Inv count size s) (hw : s.Waits count)
    (hfar : s.awaits count = false) (hnear : s.counts count = false) : s.joined count = true := by
  have hturns : s.echoStopped.isSome = true ∨ s.turns = count.toNat := by
    by_contra hno
    obtain ⟨hsome, hne⟩ := not_or.1 hno
    have hlt : s.turns < count.toNat := Nat.lt_of_le_of_ne h.turns_le.2 hne
    have hnone : s.echoStopped = none := by simpa using hsome
    simp [awaits, hnone, hw.holds, hlt] at hfar
  have hrecv : s.recvStopped = true ∨ s.messagesReceived = count := by
    by_contra hno
    obtain ⟨hrun, hne⟩ := not_or.1 hno
    have hle : s.messagesReceived.toNat ≤ count.toNat := by
      rw [h.counted]
      have hlen := h.turns_le
      rw [List.length_append] at hlen
      omega
    have hlt : s.messagesReceived < count :=
      UInt32.lt_of_le_of_ne (UInt32.le_iff_toNat_le.2 hle) hne
    simp [counts, hrun, hlt] at hnear
  simp only [joined, Bool.and_eq_true, Bool.or_eq_true, beq_iff_eq]
  exact ⟨⟨hw.sends, hturns⟩, hrecv⟩

/-- On an open channel, no loop stops without a failed send. -/
theorem Inv.not_stopped (h : Inv count size s) (hopen : s.Open) (hecho : s.echoFailed = false) :
    s.recvStopped = false ∧ s.echoStopped = none := by
  constructor
  · cases hs : s.recvStopped with
    | false => rfl
    | true => exact absurd (h.near hs) (by rw [hopen.1]; decide)
  · cases hs : s.echoStopped with
    | none => rfl
    | some r =>
      cases r with
      | ok u => exact absurd (h.far hs) (by rw [hopen.2]; decide)
      | error e => rw [echoFailed, hs] at hecho; cases hecho

/-- On an open channel, the loops end only when every message has come back. -/
theorem unfailed_of_joined (h : Inv count size s) (hopen : s.Open)
    (hjoined : s.joined count = true) : s.Unfailed := by
  have hrun : s.recvStopped = false := by
    cases hs : s.recvStopped with
    | false => rfl
    | true => exact absurd (h.near hs) (by rw [hopen.1]; decide)
  have hall : s.received.length = count.toNat := by
    rw [← h.counted, (of_joined hjoined).2.2 hrun]
  have hsent := h.order.length_le
  have hturns := h.turns_le
  rw [List.length_append, length_messages] at hsent
  rw [List.length_append] at hturns
  constructor
  · cases hs : s.sendFailed with
    | none => rfl
    | some e =>
      have hlt := h.failed_lt (by rw [hs]; rfl)
      omega
  · cases hs : s.echoFailed with
    | false => rfl
    | true =>
      have hlt := h.turn_lt (.inr hs)
      omega

/-- On an open channel without a failed send, the loops wait for nothing. -/
theorem joined_of_unfailed (h : Inv count size s) (hw : s.Waits count) (hopen : s.Open)
    (hun : s.Unfailed) : s.joined count = true := by
  obtain ⟨hsend, hecho⟩ := hun
  obtain ⟨hall, hturns⟩ := h.flight hopen hecho
  have hsent : s.sent = count.toNat := hw.sends.resolve_left (by rw [hsend]; decide)
  have hfar : s.awaits count = false := by
    cases ha : s.awaits count with
    | false => rfl
    | true =>
      have hlt := (of_awaits ha).2.2
      rw [hw.holds, (hw.far ha).1] at hall
      have hlen := congrArg List.length hall
      simp only [Option.toList_none, List.append_nil, length_messages] at hlen
      omega
  have hnear : s.counts count = false := by
    cases ha : s.counts count with
    | false => rfl
    | true =>
      have hlt := UInt32.lt_iff_toNat_lt.1 (of_counts ha).2
      obtain ⟨-, hstopped⟩ := h.not_stopped hopen hecho
      have hdone : s.turns = count.toNat := by
        by_contra hne
        have hlt : s.turns < count.toNat := Nat.lt_of_le_of_ne h.turns_le.2 hne
        simp [awaits, hstopped, hw.holds, hlt] at hfar
      rw [(hw.near ha).1, List.append_nil] at hturns
      rw [h.counted] at hlt
      omega
  exact joined_of h hw hfar hnear

/-- **When the demo returns.** Its calls do not go on forever, and when none can return any more and
the ends agree on whether the channel has closed, `run` has returned exactly when it has closed or
no send has failed: after a failed send on a channel that stays open it never does. -/
theorem demo_returns_iff (count size : UInt32)
    (h : Runs.run (step count size) start as = some s) :
    (∀ (bs : List Event) (u : Loops), (∀ b ∈ bs, b.own = true) →
      Runs.run (step count size) s bs = some u → bs.length ≤ s.work count) ∧
    ((∀ a : Event, a.own = true → step count size s a = none) → s.nearClosed = s.farClosed →
      ((s.result count).isSome ↔ s.nearClosed = true ∨ s.Unfailed)) := by
  have hinv := inv_of_run h
  constructor
  · intro bs u hown hbs
    have hlen := Runs.descends (fun _ => True) (fun b : Event => b.own = true) (work count)
      (fun _ _ _ _ hb hs => ⟨trivial, work_lt (moves_of_step hs) hb⟩) trivial hown hbs
    omega
  · intro hstuck hagree
    have hw := waits_of_stuck hinv hstuck
    have hsome : (s.result count).isSome ↔ s.joined count = true := by
      unfold result
      split
      · next hjoined =>
        refine iff_of_true ?_ hjoined
        split <;> rfl
      · next hno => exact iff_of_false (by simp) hno
    rw [hsome]
    cases hc : s.nearClosed with
    | false =>
      have hopen : s.Open := ⟨hc, hagree ▸ hc⟩
      constructor
      · exact fun hjoined => .inr (unfailed_of_joined hinv hopen hjoined)
      · rintro (hclosed | hun)
        · cases hclosed
        · exact joined_of_unfailed hinv hw hopen hun
    | true =>
      refine iff_of_true ?_ (.inl rfl)
      refine joined_of hinv hw ?_ ?_
      · cases ha : s.awaits count with
        | false => rfl
        | true => exact absurd (hw.far ha).2 (by rw [← hagree, hc]; decide)
      · cases ha : s.counts count with
        | false => rfl
        | true => exact absurd (hw.near ha).2 (by rw [hc]; decide)

/-- A send that fails while the channel stays open. -/
theorem demo_returns_iff_of_failed :
    ∃ s, Runs.run (step 2 5) start [.sent (.ok ()), .sent (.error (.other "too large")),
        .farReceived, .echoed (.ok ()), .nearReceived] = some s ∧
      (∀ a : Event, a.own = true → step 2 5 s a = none) ∧ s.result 2 = none := by
  obtain ⟨s, h, hs⟩ : ∃ s, Runs.run (step 2 5) start [.sent (.ok ()),
      .sent (.error (.other "too large")), .farReceived, .echoed (.ok ()), .nearReceived] =
        some s ∧
      (s.sendFailed = some (.other "too large") ∧ s.forth = [] ∧ s.holding = none ∧ s.back = [] ∧
        s.nearClosed = false ∧ s.farClosed = false) := ⟨_, rfl, by decide⟩
  obtain ⟨hsend, hforth, hholding, hback, hnear, hfar⟩ := hs
  have hstuck : ∀ a : Event, a.own = true → step 2 5 s a = none := by
    intro a hown
    cases a with
    | sent r => simp [step, hsend]
    | farReceived => simp [step, hforth]
    | farFailed => simp [step, hfar]
    | echoed r => simp [step, hholding]
    | nearReceived => simp [step, hback]
    | nearFailed => simp [step, hnear]
    | closed => cases hown
  refine ⟨s, h, hstuck, ?_⟩
  have hnot : ¬ (s.nearClosed = true ∨ s.Unfailed) := by
    rintro (hclosed | ⟨hnone, -⟩)
    · rw [hnear] at hclosed; cases hclosed
    · rw [hnone] at hsend; cases hsend
  have hiff := (demo_returns_iff 2 5 h).2 hstuck (hnear.trans hfar.symm)
  simpa using mt hiff.1 hnot

end

end Loops

end WebrtcDatachannels.Examples
