import WebrtcDatachannels.Host.DataChannel

/-!
# The blocks of a channel as atomic steps

`Inbound` runs a task from one await to the next, `Pumped` takes its atomic operations one by one.
The two are one program: every run of a channel is a run of the atomic steps of its pump, its
readers and its wiring task (`DataChannel.represents_run`). So what holds over every atomic run
holds of the channel: the counter is the weight of the queue and within the limit
(`DataChannel.bounded`).
-/

namespace WebrtcDatachannels.Host

open BoundedLog

/-- Where the pump is between two of its blocks. -/
def PumpTask.atomic : PumpTask → Pump
  | .unspawned | .polling => .polling
  | .closing => .closing
  | .ended => .gone

namespace Inbound

/-- The state between two blocks: no reader has a message in hand, and the holder of the mutex
awaits the receiver. -/
structure Represents (i : Inbound) (s : Pumped) : Prop where
  budget : s.budget = i.budget
  queue : s.queue = i.queue
  pump : s.pump = i.pump.atomic
  openSignal : s.openSignal = i.openSignal
  wired : s.wired = if i.pump = .unspawned then none else i.wired
  guard : s.guard = if i.lock = none then none else some .receiving
  delivered : s.delivered = i.popped.map Prod.snd
  fresh : i.pump = .unspawned → i.openSignal = .held

theorem represents_start (limit : Nat) : (deferred limit).Represents (.start limit) :=
  ⟨rfl, rfl, rfl, rfl, rfl, rfl, rfl, fun _ => rfl⟩

/-- A run of atomic steps leads to a state that represents `i`. -/
def Reached (s : Pumped) (i : Inbound) : Prop :=
  ∃ acts t, Runs.run Pumped.step s acts = some t ∧ i.Represents t

section
variable {i i' : Inbound} {s t : Pumped} {h : Holder}

/-- No atomic step leads to the same state. -/
theorem Represents.reached (hr : i.Represents s) : Reached s i := ⟨[], s, rfl, hr⟩

/-- Atomic steps before others. -/
theorem Reached.after {acts : List PumpedAct} (hrun : Runs.run Pumped.step s acts = some t)
    (hr : Reached t i) : Reached s i := by
  obtain ⟨acts', t', hrun', hr⟩ := hr
  exact ⟨acts ++ acts', t', Runs.run_append_eq_some.2 ⟨t, hrun, hrun'⟩, hr⟩

/-- Once the pump is there, the wirings are the same. -/
theorem Represents.wired_eq (hr : i.Represents s) (hp : i.pump ≠ .unspawned) : s.wired = i.wired :=
  hr.wired.trans (if_neg hp)

/-- What the pump polled is handled by the poll and its further steps. -/
theorem Represents.event (hr : i.Represents s) (hp : i.pump = .polling)
    {e : Option DataChannelEvent} (hfit : s.Fits e) : Reached s (i.event e) := by
  have hspawned : i.pump ≠ .unspawned := fun hu => by cases hp.symm.trans hu
  have hw : s.wired = i.wired := hr.wired_eq hspawned
  obtain ⟨h1, h2, h3, h4, -, h6, h7, -⟩ := hr
  have hpump : s.pump = .polling := by rw [h3, hp]; rfl
  have hpoll : Runs.run Pumped.step s [.poll e] =
      some { s with pump := Pumped.afterPoll e, polled := s.polled ++ e.toList } := by
    simp [Runs.run, Pumped.step, hpump, hfit]
  refine Reached.after hpoll ?_
  have hleave : Reached { s with pump := .leaving, polled := s.polled ++ e.toList }
      { i with
        pump := .ended
        openSignal := if i.openSignal = .held then .dropped else i.openSignal } :=
    ⟨[.pump, .pump], _, rfl, h1, h2, rfl, by rw [← h4], hw, h6, h7, fun hu => by cases hu⟩
  have hsame : ∀ {t : Pumped}, t.wired = s.wired →
      t.wired = if i.pump = .unspawned then none else i.wired := by
    intro t ht
    rw [hp, ht, hw]
    rfl
  have hpolling : Pump.polling = i.pump.atomic := by rw [hp]; rfl
  have hfresh : ∀ {P : Prop}, i.pump = .unspawned → P := fun hu => absurd hu hspawned
  cases e with
  | none => exact hleave
  | some e =>
    cases e with
    | onClose => exact hleave
    | other => exact ⟨[], _, rfl, h1, h2, hpolling, h4, hsame rfl, h6, h7, hfresh⟩
    | onOpen =>
      exact ⟨[.pump], _, rfl, h1, h2, hpolling, by simp only [Inbound.event, h4], hsame rfl, h6, h7,
        hfresh⟩
    | onMessage m =>
      obtain ⟨n, refused, reserved, hres⟩ :=
        Pumped.reserve_uninterrupted (s := { s with
          pump := Pumped.afterPoll (some (.onMessage m))
          polled := s.polled ++ [.onMessage m] }) rfl
      refine Reached.after hres ?_
      simp only [h1, Inbound.event]
      cases hr : (i.budget.reserve m.len).1 with
      | true =>
        simp only [if_true]
        exact ⟨[.pump], _, rfl, rfl, by rw [← h2], hpolling, h4, hsame rfl, h6, h7, hfresh⟩
      | false =>
        exact ⟨[], _, rfl, rfl, h2, rfl, h4, hw, h6, h7, fun hu => by cases hu⟩

/-- `channel.close()` returns. -/
theorem Represents.closed (hr : i.Represents s) (hp : i.pump = .closing) :
    Reached s { i with pump := .polling } := by
  have hspawned : i.pump ≠ .unspawned := fun hu => by cases hp.symm.trans hu
  have hw : s.wired = i.wired := hr.wired_eq hspawned
  obtain ⟨h1, h2, h3, h4, -, h6, h7, -⟩ := hr
  have hpump : s.pump = .closing := by rw [h3, hp]; rfl
  have hrun : Runs.run Pumped.step s [.pump] = some { s with pump := .polling } := by
    simp [Runs.run, Pumped.step, Pumped.pumpStep, hpump]
  exact ⟨[.pump], _, hrun, h1, h2, rfl, h4, hw, h6, h7, fun hu => by cases hu⟩

/-- The wiring task resolves. -/
theorem Represents.wire (hr : i.Represents s) (hi : i.wire = some i') : Reached s i' := by
  have hp : i.pump ≠ .unspawned := by
    intro hp
    simp [Inbound.wire, hr.fresh hp] at hi
  have hw := hr.wired_eq hp
  obtain ⟨h1, h2, h3, h4, -, h6, h7, -⟩ := hr
  have hset : ∀ r, Pumped.step s .wire = some { s with wired := some r } →
      Reached s { i with wired := some r } := fun r hs =>
    ⟨[.wire], { s with wired := some r }, by simp [Runs.run, hs], h1, h2, h3, h4, (if_neg hp).symm,
      h6, h7, fun hu => absurd hu hp⟩
  unfold Inbound.wire at hi
  split at hi
  · next hnone =>
    split at hi <;> cases hi
    · next hsig => exact hset _ (by simp [Pumped.step, hw, hnone, h4, hsig])
    · next hsig => exact hset _ (by simp [Pumped.step, hw, hnone, h4, hsig])
  · cases hi

/-- A reader that may have the mutex takes it. -/
theorem Represents.lock (hr : i.Represents s) (hl : i.lock = none ∨ i.lock = some h) :
    ∃ acts t, Runs.run Pumped.step s acts = some t ∧ { i with lock := some h }.Represents t ∧
      t.guard = some .receiving := by
  obtain ⟨h1, h2, h3, h4, h5, h6, h7, h8⟩ := hr
  rcases hl with hl | hl
  · have hg : s.guard = none := by rw [h6, hl]; rfl
    refine ⟨[.read, .lock], { s with guard := some .receiving }, ?_, ?_, rfl⟩
    · simp [Runs.run, Pumped.step, hg]
    · exact ⟨h1, h2, h3, h4, h5, rfl, h7, h8⟩
  · have hg : s.guard = some .receiving := by rw [h6, hl]; rfl
    exact ⟨[], s, rfl, ⟨h1, h2, h3, h4, h5, hg, h7, h8⟩, hg⟩

/-- A poll of the queue takes the mutex if it can, and receives if there is something. -/
theorem Represents.pollQueue (hr : i.Represents s) (h : Holder) : Reached s (i.pollQueue h).2 := by
  unfold Inbound.pollQueue
  split
  · next hl =>
    obtain ⟨acts, t, hrun, hr', hg⟩ := hr.lock hl
    refine Reached.after hrun ?_
    obtain ⟨h1, h2, h3, h4, h5, -, h7, h8⟩ := hr'
    split
    · next m rest hq =>
      have hqueue : t.queue = m :: rest := h2.trans hq
      refine ⟨[.receive, .finish],
        { t with
          queue := rest
          budget := t.budget.release m.len
          released := t.released + m.len
          guard := none
          returned := t.returned ++ [.ok m] }, ?_, ?_⟩
      · simp [Runs.run, Pumped.step, hg, hqueue]
      · refine ⟨by rw [← h1], rfl, h3, h4, h5, rfl, ?_, h8⟩
        rw [List.map_append, ← h7]
        simp [Pumped.delivered, Except.toOption, List.filterMap_append]
    · next hq =>
      have hqueue : t.queue = [] := h2.trans hq
      split
      · next hend =>
        have hgone : t.pump = .gone := h3.trans (by rw [hend]; rfl)
        refine ⟨[.receive, .finish],
          { t with
            guard := none
            returned := t.returned ++
              [.error (if t.budget.overflowed then .receiveBufferOverflow else .closed)] }, ?_, ?_⟩
        · simp [Runs.run, Pumped.step, hg, hqueue, hgone]
        · refine ⟨h1, h2, h3, h4, h5, rfl, ?_, h8⟩
          rw [← h7]
          simp [Pumped.delivered, Except.toOption, List.filterMap_append]
      · exact ⟨[], t, rfl, h1, h2, h3, h4, h5, hg, h7, h8⟩
  · exact hr.reached

/-- A dropped future gives the mutex back. -/
theorem Represents.dropFuture (hr : i.Represents s) (h : Holder) : Reached s (i.dropFuture h) := by
  unfold Inbound.dropFuture
  split
  · next hl =>
    obtain ⟨h1, h2, h3, h4, h5, h6, h7, h8⟩ := hr
    have hg : s.guard = some .receiving := by rw [h6, hl]; rfl
    exact ⟨[.cancel], { s with guard := none }, by simp [Runs.run, Pumped.step, hg], h1, h2, h3, h4,
      h5, rfl, h7, h8⟩
  · exact hr.reached

/-- A poll of the inbound future. -/
theorem Represents.pollNext (hr : i.Represents s) (h : Holder) : Reached s (i.pollNext h).2 := by
  unfold Inbound.pollNext
  split
  · exact hr.reached
  · exact hr.reached
  · have hq := hr.pollQueue h
    rcases hpoll : i.pollQueue h with ⟨r, i'⟩
    rw [hpoll] at hq
    rcases r with _ | _ | m <;> exact hq

/-- A poll of a producer's future. -/
theorem Represents.pollStream (hr : i.Represents s) (h : Holder) :
    Reached s (i.pollStream h).2 := by
  unfold Inbound.pollStream
  split
  · exact hr.reached
  · exact hr.reached
  · exact hr.pollQueue h

/-- Steps that lead to a state, and from there by a dropped future. -/
theorem Reached.dropFuture (hr : Reached s i) (h : Holder) : Reached s (i.dropFuture h) := by
  obtain ⟨acts, t, hrun, hr⟩ := hr
  exact (hr.dropFuture h).after hrun

end

end Inbound

namespace DataChannel

open Inbound

variable {d d' : DataChannel} {a : DataChannelAct} {s : Pumped}

/-- A poll of a `receive` call's race. -/
theorem reached_race (hr : d.inbound.Represents s) (k : Nat) : Reached s (d.race k).2 := by
  have hn := hr.pollNext (.call k)
  unfold race
  rcases hpoll : d.inbound.pollNext (.call k) with ⟨_ | outcome, i⟩
  · rw [hpoll] at hn
    simp only
    split
    · exact hn.dropFuture _
    · split
      · exact hn.dropFuture _
      · exact hn
  · rw [hpoll] at hn
    exact hn

/-- A poll of a `receive` call. -/
theorem reached_pollReceive (hr : d.inbound.Represents s) {k : Nat}
    (h : d.pollReceive k = some d') : Reached s d'.inbound := by
  have hrace := reached_race hr k
  simp only [pollReceive] at h
  rcases hr' : d.race k with ⟨_ | outcome, i⟩ <;> simp only [hr'] at h hrace
  all_goals
    split at h
    · split at h <;> cases h
      · exact hr.reached
      · exact hrace
    · cases h; exact hrace
    · cases h

/-- A poll of a stream's producer. -/
theorem reached_pollProduce (hr : d.inbound.Represents s) (j : Nat) (finish : Bool) :
    Reached s (d.pollProduce j finish).2.inbound := by
  have hn := hr.pollStream (.stream j)
  unfold pollProduce
  rcases hpoll : d.inbound.pollStream (.stream j) with ⟨_ | _ | m, i⟩ <;> rw [hpoll] at hn
  · simp only
    split
    · exact hn.dropFuture _
    · exact hn
  · exact hn
  · exact hn

/-- Every step of a channel is a run of the atomic steps of its queue. -/
theorem reached_step (hr : d.inbound.Represents s) (hfit : ∀ e, s.Fits e)
    (h : d.step a = some d') : Reached s d'.inbound := by
  cases a with
  | create =>
    simp only [step] at h
    split at h
    · next hp =>
      cases h
      obtain ⟨h1, h2, h3, h4, h5, h6, h7, -⟩ := hr
      rw [if_pos hp.1] at h5
      rw [hp.1] at h3
      refine ⟨[], s, rfl, h1, h2, h3, h4, h5.trans hp.2.symm, h6, h7, ?_⟩
      intro hu
      cases hu
    · cases h
  | fail reason =>
    simp only [step] at h
    split at h
    · next hp =>
      cases h
      obtain ⟨h1, h2, h3, h4, h5, h6, h7, h8⟩ := hr
      rw [if_pos hp.1] at h5
      exact ⟨[], s, rfl, h1, h2, h3, h4, h5.trans (if_pos hp.1).symm, h6, h7, h8⟩
    · cases h
  | event e =>
    simp only [step] at h
    split at h
    · next hp => cases h; exact hr.event hp (hfit e)
    · cases h
  | closed =>
    simp only [step] at h
    split at h
    · next hp => cases h; exact hr.closed hp
    · cases h
  | wire =>
    obtain ⟨i, hi, rfl⟩ := Option.map_eq_some_iff.1 h
    exact hr.wire hi
  | fire | receive => cases h; exact hr.reached
  | receiveViaStream =>
    cases h
    unfold receiveViaStream beginStreamReceiving
    simp only
    split
    · exact hr.reached
    · exact hr.reached
  | poll k =>
    obtain ⟨d', hd, rfl⟩ := Option.map_eq_some_iff.1 h
    have hreached := reached_pollReceive hr hd
    exact hreached
  | cancel k =>
    simp only [step] at h
    split at h
    · cases h; exact hr.dropFuture _
    · cases h; exact hr.dropFuture _
    · cases h
  | produce j finish =>
    simp only [step] at h
    split at h
    · cases h; exact reached_pollProduce hr j finish
    · cases h
  | dropStream j =>
    simp only [step] at h
    split at h
    · cases h; exact hr.dropFuture _
    · cases h

/-- **A run of a channel is an atomic run of its queue.** -/
theorem represents_run {limit : Nat} (hlimit : limit < usizeMax) {as : List DataChannelAct}
    (h : Runs.run step (.deferred limit) as = some d) :
    ∃ acts s, Runs.run Pumped.step (.start limit) acts = some s ∧ d.inbound.Represents s ∧
      ∃ q : Log InboundMessage.len limit, s.Refines q := by
  refine Runs.simulates (R := fun d s => d.inbound.Represents s ∧
    ∃ q : Log InboundMessage.len limit, s.Refines q) ?_
    ⟨represents_start limit, _, .start limit⟩ h
  rintro d s a d' ⟨hr, q, hq⟩ hs
  have hfit : ∀ e, s.Fits e := by
    intro e
    unfold Pumped.Fits
    split
    · intro hl
      exact absurd (hq.limit.symm.trans hl) (Nat.ne_of_lt hlimit)
    · trivial
  obtain ⟨acts, t, hrun, hr'⟩ := reached_step hr hfit hs
  obtain ⟨ops, hq'⟩ := hq.run (Nat.le_of_lt hlimit) hrun
  exact ⟨acts, t, hrun, hr', _, hq'⟩

/-- Over every run of a channel the counter is the weight of its queue, and is within the limit. -/
theorem bounded {limit : Nat} (hlimit : limit < usizeMax) {as : List DataChannelAct}
    (h : Runs.run step (.deferred limit) as = some d) :
    d.inbound.budget.buffered = load InboundMessage.len d.inbound.queue ∧
      d.inbound.budget.buffered ≤ limit := by
  obtain ⟨acts, s, -, hr, q, hq⟩ := represents_run hlimit h
  have hhand : s.inHand = [] := by
    rw [Pumped.inHand, hr.guard]
    cases d.inbound.lock <;> rfl
  have hpump : s.pump.admitted = [] ∧ s.pump.uncounted = 0 := by
    rw [hr.pump]
    cases d.inbound.pump <;> exact ⟨rfl, rfl⟩
  have hcounted := hq.counted
  rw [hq.held, hhand, hpump.1, hpump.2, hr.queue, hr.budget, List.nil_append, List.append_nil,
    Nat.add_zero] at hcounted
  refine ⟨hcounted, ?_⟩
  rw [← hr.budget]
  exact hq.within

end DataChannel

end WebrtcDatachannels.Host
