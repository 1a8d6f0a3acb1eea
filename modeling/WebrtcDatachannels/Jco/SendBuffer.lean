import WebrtcDatachannels.Jco.PayloadBound
import WebrtcDatachannels.Jco.Send
import WebrtcDatachannels.Lib.Entries

/-!
# The send buffer of the browser-first host

`jco-impl/webrtc.js`. A `send` looks at the buffer, awaits, and hands its message over when it goes
on, without another look. `Buffered` adds to the calls of `send` what a W3C channel does with its
buffer: its own `send` adds the size of the message at once, and `bufferedamountlow` is fired when
the amount falls to the threshold. A call alone never hands over above the bound; calls that overlap
can, since every one of them has looked before any of them adds (`Buffered.send_buffer_iff`). The
conformance adapter has the same three functions.
-/

namespace WebrtcDatachannels.Jco

/-- A channel with its calls of `send`; the amount buffered at each call of its own `send`, and the
size of each message it took; and the calls that another one has overtaken, handing a message over
after they had found the buffer low enough. -/
structure Buffered where
  outbound : Outbound
  calledAt : List Nat
  added : List Nat
  overtaken : List Nat

/-- A `send` is called; the channel changes its state or fires an event other than
`bufferedamountlow`, or sends some of what is buffered; a call goes on, with the answer of the
channel's own `send` should it get there. -/
inductive BufferedAct where
  | send (message : Message)
  | readyState (state : ReadyState)
  | event (event : ChannelEvent) (h : event ≠ .bufferedAmountLow)
  | drain (n : Nat)
  | resume (k : Nat) (answer : Except String Unit)

namespace Buffered

/-- A channel that nothing was sent on. -/
def new (state : ReadyState) : Buffered :=
  { outbound := .new state, calledAt := [], added := [], overtaken := [] }

/-- The calls that have found the buffer low enough and have not gone on yet. -/
def passed (s : Outbound) : List Nat :=
  (List.range s.sends.length).filter fun k =>
    match s.sends[k]? with
    | some ⟨_, .waitForDrain true⟩ => true
    | _ => false

/-- The channel sends `n` of its buffered bytes, and fires `bufferedamountlow` when that takes the
amount down to the threshold. -/
def drain (s : Outbound) (n : Nat) : Outbound :=
  let drained := { s with bufferedAmount := s.bufferedAmount - n }
  if s.bufferedAmountLowThreshold < s.bufferedAmount ∧
      drained.bufferedAmount ≤ s.bufferedAmountLowThreshold then
    { drained with sends := s.sends.map (Send.onEvent .bufferedAmountLow) }
  else drained

/-- The channel's own `send` is called, adds the message to the buffer unless it throws, and the
calls that have found the buffer low enough are overtaken. -/
def hand (s : Buffered) (k : Nat) (c : Send) (answer : Except String Unit) : Buffered :=
  let calledAt := s.calledAt ++ [s.outbound.bufferedAmount]
  let outbound := s.outbound.hand k c answer
  match answer with
  | .ok () =>
    { outbound :=
        { outbound with bufferedAmount := outbound.bufferedAmount + payloadBytes c.message }
      calledAt
      added := s.added ++ [payloadBytes c.message]
      overtaken := s.overtaken ++ passed outbound }
  | .error _ => { s with outbound, calledAt }

/-- One step. -/
def step (s : Buffered) : BufferedAct → Option Buffered
  | .send message => (s.outbound.step (.send message)).map fun outbound => { s with outbound }
  | .readyState state =>
    (s.outbound.step (.readyState state)).map fun outbound => { s with outbound }
  | .event event _ => (s.outbound.step (.event event)).map fun outbound => { s with outbound }
  | .drain n => some { s with outbound := drain s.outbound n }
  | .resume k answer =>
    match s.outbound.sends[k]? with
    | none => none
    | some c =>
      match c.stage with
      | .waitForDrain true => some (s.hand k c answer)
      | _ => (s.outbound.resume k c answer).map fun outbound => { s with outbound }

/-- Every call of the channel's own `send` found the amount within the bound, and the amount is
within it or above it by one message at most. -/
def Bounded (s : Buffered) : Prop :=
  (∀ n ∈ s.calledAt, n ≤ maxBufferedAmount) ∧
    (s.outbound.bufferedAmount ≤ maxBufferedAmount ∨
      ∃ n ∈ s.added, s.outbound.bufferedAmount ≤ maxBufferedAmount + n)

/-- No call that was overtaken goes on to hand its message over while the amount is above the
bound. -/
def Spaced (s : Buffered) : BufferedAct → Prop
  | .resume k _ => k ∈ s.overtaken → ∀ c, s.outbound.sends[k]? = some c →
      c.stage = .waitForDrain true → s.outbound.bufferedAmount ≤ maxBufferedAmount
  | _ => True

variable {s s' : Buffered} {a : BufferedAct}

/-- The calls passed are those whose wait for the buffer is resolved. -/
theorem mem_passed {o : Outbound} {k : Nat} {c : Send} (hk : o.sends[k]? = some c)
    (hc : c.stage = .waitForDrain true) : k ∈ passed o := by
  obtain ⟨message, stage⟩ := c
  obtain rfl : stage = .waitForDrain true := hc
  refine List.mem_filter.2 ⟨List.mem_range.2 (List.getElem?_eq_some_iff.1 hk).1, ?_⟩
  rw [hk]

/-- Only `bufferedamountlow` resolves a wait for the buffer. -/
theorem onEvent_passed {event : ChannelEvent} {c : Send} (h : event ≠ .bufferedAmountLow)
    (hc : (c.onEvent event).stage = .waitForDrain true) : c.stage = .waitForDrain true := by
  unfold Send.onEvent at hc
  split at hc
  · cases hc
  · cases hc
  · cases hc
  · exact absurd rfl h
  · exact hc

/-- What a call that has passed, and was not overtaken, relies on. -/
def Clear (s : Buffered) : Prop :=
  ∀ k c, s.outbound.sends[k]? = some c → c.stage = .waitForDrain true → k ∉ s.overtaken →
    s.outbound.bufferedAmount ≤ maxBufferedAmount

/-- What carries the bound over a run: the event comes only when the amount is within the bound,
and a call that was not overtaken finds it so. -/
structure Inv (s : Buffered) : Prop where
  threshold : s.outbound.bufferedAmountLowThreshold ≤ maxBufferedAmount
  clear : s.Clear
  bounded : s.Bounded

theorem inv_new (state : ReadyState) : (new state).Inv where
  threshold := Nat.zero_le _
  clear := nofun
  bounded := ⟨nofun, .inl (Nat.zero_le _)⟩

/-- The amount has not grown. -/
theorem Bounded.mono (h : s.Bounded) {o : Outbound}
    (hle : o.bufferedAmount ≤ s.outbound.bufferedAmount) : { s with outbound := o }.Bounded :=
  ⟨h.1, h.2.imp (Nat.le_trans hle) fun ⟨n, hn, hs⟩ => ⟨n, hn, Nat.le_trans hle hs⟩⟩

/-- A call moves on to where it has not found the buffer low enough, or finds it so. -/
theorem Clear.setStage (h : s.Clear) {k threshold : Nat} {c : Send} {stage : SendStage}
    (hstage : stage = .waitForDrain true → s.outbound.bufferedAmount ≤ maxBufferedAmount) :
    Clear { s with
      outbound := { s.outbound.setStage k c stage with
        bufferedAmountLowThreshold := threshold } } := by
  intro j c' hj hc' hnot
  have hj' : (s.outbound.sends.set k { c with stage })[j]? = some c' := hj
  rw [List.getElem?_set] at hj'
  split at hj'
  · split at hj'
    · cases hj'
      exact hstage hc'
    · cases hj'
  · exact h j c' hj' hc' hnot

/-- The channel sends some of what is buffered. -/
theorem Inv.drain (hi : s.Inv) (n : Nat) :
    Inv { s with outbound := Buffered.drain s.outbound n } := by
  unfold Buffered.drain
  dsimp only
  split
  · next hlow =>
    refine ⟨hi.threshold, ?_, hi.bounded.mono (Nat.sub_le _ _)⟩
    exact fun _ _ _ _ _ => Nat.le_trans hlow.2 hi.threshold
  · refine ⟨hi.threshold, ?_, hi.bounded.mono (Nat.sub_le _ _)⟩
    exact fun k c hk hc hnot => Nat.le_trans (Nat.sub_le _ _) (hi.clear k c hk hc hnot)

/-- A call that is not overtaken, or is spaced, hands its message over within the bound. -/
theorem Inv.hand (hi : s.Inv) {k : Nat} {c : Send}
    (hle : s.outbound.bufferedAmount ≤ maxBufferedAmount) (answer : Except String Unit) :
    (s.hand k c answer).Inv := by
  have hcalled : ∀ n ∈ s.calledAt ++ [s.outbound.bufferedAmount], n ≤ maxBufferedAmount :=
    Entries.forall_mem_append hi.bounded.1 hle
  cases answer with
  | ok u =>
    refine ⟨hi.threshold, fun j c' hj hc' hnot => ?_, hcalled, .inr ?_⟩
    · exact absurd (List.mem_append_right _ (mem_passed hj hc')) hnot
    · refine ⟨payloadBytes c.message, List.mem_append_right _ (List.mem_singleton_self _), ?_⟩
      exact Nat.add_le_add_right hle _
  | error reason =>
    refine ⟨hi.threshold, ?_, hcalled, hi.bounded.2⟩
    have hdone : SendStage.done (.error .closed) = .waitForDrain true →
        s.outbound.bufferedAmount ≤ maxBufferedAmount := nofun
    exact hi.clear.setStage hdone

/-- A call that is not about to hand its message over goes on. -/
theorem Inv.resume (hi : s.Inv) {k : Nat} {c : Send} {answer : Except String Unit} {o : Outbound}
    (hc : c.stage ≠ .waitForDrain true) (h : s.outbound.resume k c answer = some o) :
    Inv { s with outbound := o } := by
  unfold Outbound.resume at h
  split at h
  · cases h
    exact ⟨hi.threshold, hi.clear.setStage nofun, hi.bounded⟩
  · cases h
    unfold Outbound.waitForDrain
    split
    · next hle => exact ⟨hi.threshold, hi.clear.setStage fun _ => hle, hi.bounded⟩
    · exact ⟨Nat.div_le_self _ _, hi.clear.setStage nofun, hi.bounded⟩
  · next hpassed => exact absurd hpassed hc
  · cases h

/-- A step that is spaced keeps the invariant. -/
theorem Inv.step (hi : s.Inv) (hC : s.Spaced a) (h : s.step a = some s') : s'.Inv := by
  cases a with
  | send message =>
    cases h
    refine ⟨hi.threshold, fun k c hk hc hnot => ?_, hi.bounded⟩
    rcases Nat.lt_or_ge k s.outbound.sends.length with hlt | hge
    · refine hi.clear k c ?_ hc hnot
      rw [← hk]
      exact (List.getElem?_append_left hlt).symm
    · have hnew := (List.getElem?_append_right hge).symm.trans hk
      cases List.mem_singleton.1 (List.mem_of_getElem? hnew)
      cases hc
  | readyState state => cases h; exact ⟨hi.threshold, hi.clear, hi.bounded⟩
  | event event hne =>
    cases h
    refine ⟨hi.threshold, fun k c hk hc hnot => ?_, hi.bounded⟩
    obtain ⟨c, hold, rfl⟩ := Option.map_eq_some_iff.1 ((List.getElem?_map ..).symm.trans hk)
    exact hi.clear k c hold (onEvent_passed hne hc) hnot
  | drain n => cases h; exact hi.drain n
  | resume k answer =>
    simp only [Buffered.step] at h
    split at h
    · cases h
    · next c hk =>
      split at h
      · next hc =>
        cases h
        refine hi.hand ?_ answer
        by_cases hover : k ∈ s.overtaken
        · exact hC hover c hk hc
        · exact hi.clear k c hk hc hover
      · next hc =>
        obtain ⟨o, ho, rfl⟩ := Option.map_eq_some_iff.1 h
        exact hi.resume hc ho

/-- A step that is not spaced hands a message over above the bound. -/
theorem not_bounded_step (hC : ¬ s.Spaced a) (h : s.step a = some s') : ¬ s'.Bounded := by
  intro hb
  cases a with
  | send | readyState | event | drain => exact hC trivial
  | resume k answer =>
    refine hC fun _ c hk hc => ?_
    simp only [Buffered.step, hk, hc] at h
    cases h
    refine hb.1 _ ?_
    cases answer <;> exact List.mem_append_right _ (List.mem_singleton_self _)

/-- **When the send buffer stays bounded.** Along every run, the channel's own `send` is called only
within the bound and the buffered amount exceeds it by one message at most, in every state, exactly
when no call that another has overtaken goes on while the amount is above the bound. -/
theorem send_buffer_iff {state : ReadyState} {as : List BufferedAct} {s : Buffered}
    (h : Runs.run step (new state) as = some s) :
    Runs.Along step Bounded (new state) as ↔ Runs.Meets step Spaced (new state) as :=
  Runs.along_iff_meets (fun _ hi => hi.bounded) (fun _ _ _ hi hC hs => hi.step hC hs)
    (fun _ _ _ _ hC hs => not_bounded_step hC hs) (inv_new state) h

/-- Two calls overlap within the bound, and after the channel has sent what is buffered a third is
refused. -/
theorem send_buffer_iff_of_low :
    Runs.Along step Bounded (new .open)
      [.send (.string "a"), .send (.string "bc"), .resume 0 (.ok ()), .resume 1 (.ok ()),
        .resume 0 (.ok ()), .resume 1 (.ok ()), .send (.binary [1]), .drain 3,
        .resume 2 (.ok ()), .resume 2 (.error "closed")] := by
  refine (send_buffer_iff rfl).2 ?_
  iterate 2 refine (Runs.meets_cons rfl).2 ⟨trivial, ?_⟩
  iterate 4 refine (Runs.meets_cons rfl).2 ⟨fun _ _ _ _ => of_decide_eq_true rfl, ?_⟩
  iterate 2 refine (Runs.meets_cons rfl).2 ⟨trivial, ?_⟩
  iterate 2 refine (Runs.meets_cons rfl).2 ⟨fun _ _ _ _ => of_decide_eq_true rfl, ?_⟩
  trivial

/-- Two calls that overlap both find the buffer empty, and hand their messages over one after the
other. -/
theorem run_overlapping (m : Message) : ∃ s,
    Runs.run step (new .open)
      [.send m, .send m, .resume 0 (.ok ()), .resume 1 (.ok ()), .resume 0 (.ok ()),
        .resume 1 (.ok ())] = some s ∧
    s.calledAt = [0, payloadBytes m] ∧
    s.outbound.bufferedAmount = payloadBytes m + payloadBytes m :=
  ⟨_, rfl, congrArg (fun n => [0, n]) (Nat.zero_add _),
    congrArg (· + payloadBytes m) (Nat.zero_add _)⟩

/-- Two calls with a message of nine million bytes each overlap, and the second hands it over above
the bound. -/
theorem send_buffer_exceeded : ∃ s,
    Runs.run step (new .open)
      [.send (.binary (List.replicate 9000000 0)), .send (.binary (List.replicate 9000000 0)),
        .resume 0 (.ok ()), .resume 1 (.ok ()), .resume 0 (.ok ()), .resume 1 (.ok ())] =
      some s ∧
    s.calledAt = [0, 9000000] ∧ s.outbound.bufferedAmount = 18000000 ∧ ¬ s.Bounded := by
  have hsize : payloadBytes (.binary (List.replicate 9000000 0)) = 9000000 :=
    List.length_replicate
  obtain ⟨s, hs, hcalled, hamount⟩ := run_overlapping (.binary (List.replicate 9000000 0))
  rw [hsize] at hcalled hamount
  refine ⟨s, hs, hcalled, hamount, fun hb => ?_⟩
  have hle := hb.1 9000000 (by rw [hcalled]; decide)
  exact absurd hle (by decide)

end Buffered

end WebrtcDatachannels.Jco
