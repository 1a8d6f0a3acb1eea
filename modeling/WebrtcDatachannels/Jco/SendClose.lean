import WebrtcDatachannels.Jco.Send
import WebrtcDatachannels.Lib.Entries

/-!
# A browser-first send and the close of its channel

`jco-impl/webrtc.js`. A `send` waits for the channel to open and then for its buffer to drain. The
first wait listens to `close` and `error`; the second only to `bufferedamountlow`, which a channel
that has closed does not fire any more. So no `send` is left behind by a close exactly when none
waits for the buffer at that time and none starts to afterwards (`Closable.sends_released_iff`). The
conformance adapter has the same three functions.
-/

namespace WebrtcDatachannels.Jco

/-- How far along a channel is. -/
def ReadyState.rank : ReadyState → Nat
  | .connecting => 0
  | .open => 1
  | .closing => 2
  | .closed => 3

/-- The step dispatches the `close` event. -/
def SendAct.dispatchesClose : SendAct → Bool
  | .event .close => true
  | _ => false

/-- The call awaits a promise that is not settled. -/
def Send.Stranded (c : Send) : Prop := c.stage = .waitOpen none ∨ c.stage = .waitForDrain false

/-- A channel with its calls of `send`, and whether its `close` event has been dispatched. -/
structure Closable where
  outbound : Outbound
  closeDispatched : Bool

namespace Closable

/-- A channel that nothing was sent on. -/
def new (state : ReadyState) : Closable := { outbound := .new state, closeDispatched := false }

/-- The order of a W3C channel: its state only moves on, its `open` event follows the state, and its
one `close` event comes when it is closed. -/
def Allowed (s : Closable) : SendAct → Prop
  | .readyState state => s.outbound.readyState.rank < state.rank
  | .event .open => s.outbound.readyState ≠ .connecting
  | .event .close => s.outbound.readyState = .closed ∧ s.closeDispatched = false
  | _ => True

instance (s : Closable) : (a : SendAct) → Decidable (s.Allowed a)
  | .readyState _ => inferInstanceAs (Decidable (_ < _))
  | .event .open => inferInstanceAs (Decidable (_ ≠ _))
  | .event .close => inferInstanceAs (Decidable (_ ∧ _))
  | .event .error | .event .bufferedAmountLow => inferInstanceAs (Decidable True)
  | .send _ | .bufferedAmount _ | .resume _ _ => inferInstanceAs (Decidable True)

/-- One step. -/
def step (s : Closable) (a : SendAct) : Option Closable :=
  if s.Allowed a then
    (s.outbound.step a).map fun outbound =>
      { outbound, closeDispatched := s.closeDispatched || a.dispatchesClose }
  else none

/-- A call that has ended has handed its message over, or was rejected with `closed`. -/
def Ended (s : Closable) : Prop :=
  ∀ c ∈ s.outbound.sends, ∀ r, c.result = some r →
    r = .ok () ∧ c.message ∈ s.outbound.taken ∨ r = .error .closed

/-- When the channel is closed and the event dispatched, no call awaits what will not come; the
calls that ended did so one way or the other; and one whose promise is settled goes on, and ends, or
comes from its first wait to the second, which is over if the buffer is low enough. -/
structure Released (s : Closable) : Prop where
  released : s.outbound.readyState = .closed → s.closeDispatched = true →
    ∀ c ∈ s.outbound.sends, ¬ c.Stranded
  ended : s.Ended
  ends : ∀ k c answer, s.outbound.sends[k]? = some c → c.result = none → ¬ c.Stranded →
    ∃ s' c', s.step (.resume k answer) = some s' ∧ s'.outbound.sends[k]? = some c' ∧
      c'.message = c.message ∧
      (c'.result.isSome = true ∨ c.stage = .waitOpen (some (.ok ())) ∧
        c'.stage = .waitForDrain (decide (s.outbound.bufferedAmount ≤ maxBufferedAmount)))

/-- No call waits for the buffer to drain when the `close` event comes, and none begins to wait for
it after. -/
def Heeded (s : Closable) : SendAct → Prop
  | .event .close => ∀ c ∈ s.outbound.sends, c.stage ≠ .waitForDrain false
  | .resume k _ => s.closeDispatched = true → ∀ c, s.outbound.sends[k]? = some c →
      c.stage = .waitOpen (some (.ok ())) → s.outbound.bufferedAmount ≤ maxBufferedAmount
  | _ => True

variable {s s' : Closable} {a : SendAct}

/-- What carries the result over a run: the event comes only to a closed channel, no call is
stranded after it, a wait for the opening is rejected with `closed`, and so is a call, unless it has
handed its message over. -/
structure Inv (s : Closable) : Prop where
  closed : s.closeDispatched = true → s.outbound.readyState = .closed
  released : s.closeDispatched = true → ∀ c ∈ s.outbound.sends, ¬ c.Stranded
  rejected : ∀ c ∈ s.outbound.sends, ∀ e, c.stage = .waitOpen (some (.error e)) → e = .closed
  ended : s.Ended

theorem inv_new (state : ReadyState) : (new state).Inv where
  closed := nofun
  released := nofun
  rejected := nofun
  ended := nofun

/-- A call whose promise is settled goes on when it is resumed. -/
theorem resume_settled {k : Nat} {c : Send} {answer : Except String Unit}
    (hk : s.outbound.sends[k]? = some c) (hc : c.result = none) (hset : ¬ c.Stranded) :
    ∃ s' c', s.step (.resume k answer) = some s' ∧ s'.outbound.sends[k]? = some c' ∧
      c'.message = c.message ∧
      (c'.result.isSome = true ∨ c.stage = .waitOpen (some (.ok ())) ∧
        c'.stage = .waitForDrain (decide (s.outbound.bufferedAmount ≤ maxBufferedAmount))) := by
  have hstep : s.step (.resume k answer) =
      (s.outbound.resume k c answer).map fun outbound =>
        { outbound, closeDispatched := s.closeDispatched || false } := by
    simp only [step, Outbound.step, hk, Option.bind_some]
    exact if_pos trivial
  have hget : ∀ stage, (s.outbound.setStage k c stage).sends[k]? = some { c with stage } :=
    fun stage => List.getElem?_set_self (List.getElem?_eq_some_iff.1 hk).1
  rw [hstep]
  obtain ⟨message, stage⟩ := c
  cases stage with
  | waitOpen promise =>
    cases promise with
    | none => exact absurd (.inl rfl) hset
    | some r =>
      cases r with
      | error e => exact ⟨_, _, rfl, hget _, rfl, .inl rfl⟩
      | ok =>
        simp only [Outbound.resume, Outbound.waitForDrain]
        split
        · next hle => exact ⟨_, _, rfl, hget _, rfl, .inr ⟨trivial, by simp [hle]⟩⟩
        · next hlt => exact ⟨_, _, rfl, hget _, rfl, .inr ⟨trivial, by simp [hlt]⟩⟩
  | waitForDrain resolved =>
    cases resolved with
    | false => exact absurd (.inr rfl) hset
    | true => cases answer <;> exact ⟨_, _, rfl, hget _, rfl, .inl rfl⟩
  | done r => cases hc

theorem Inv.isReleased (hi : s.Inv) : s.Released where
  released _ := hi.released
  ended := hi.ended
  ends _ _ _ := resume_settled

/-- A step is one of the channel's, in order, and it dispatches the `close` event or leaves that as
it is. -/
theorem step_eq_some (h : s.step a = some s') : s.Allowed a ∧ ∃ o d, s.outbound.Effect a o ∧
    s' = ⟨o, d⟩ ∧ (a = .event .close ∧ d = true ∨ a ≠ .event .close ∧ d = s.closeDispatched) := by
  unfold step at h
  split at h
  · next hallowed =>
    obtain ⟨o, ho, rfl⟩ := Option.map_eq_some_iff.1 h
    refine ⟨hallowed, o, _, Outbound.step_effect ho, rfl, ?_⟩
    by_cases hclose : a = .event .close
    · exact .inl ⟨hclose, by rw [hclose]; exact Bool.or_true _⟩
    · refine .inr ⟨hclose, ?_⟩
      cases a with
      | event event => cases event <;> first | exact Bool.or_false _ | exact absurd rfl hclose
      | send | readyState | bufferedAmount | resume => exact Bool.or_false _
  · cases h

/-- On a closed channel the wait for the opening is rejected at once. -/
theorem waitOpen_of_closed {o : Outbound} (h : o.readyState = .closed) :
    o.waitOpen = some (.error .closed) := by
  rw [Outbound.waitOpen, h]

/-- The `close` event settles every wait for the opening. -/
theorem stranded_onEvent_close (c : Send) :
    (c.onEvent .close).Stranded ↔ c.stage = .waitForDrain false := by
  obtain ⟨message, stage⟩ := c
  cases stage with
  | waitOpen promise => cases promise <;> simp [Send.onEvent, Send.Stranded]
  | waitForDrain resolved => cases resolved <;> simp [Send.onEvent, Send.Stranded]
  | done r => simp [Send.onEvent, Send.Stranded]

/-- No event strands a call. -/
theorem stranded_of_onEvent {event : ChannelEvent} {c : Send} (h : (c.onEvent event).Stranded) :
    c.Stranded := by
  unfold Send.onEvent at h
  split at h
  · rcases h with h | h <;> cases h
  · rcases h with h | h <;> cases h
  · rcases h with h | h <;> cases h
  · rcases h with h | h <;> cases h
  · exact h

/-- An event settles the wait for the opening with `closed` if it rejects it. -/
theorem rejected_onEvent {event : ChannelEvent} {c : Send} {e : Error}
    (hc : ∀ e, c.stage = .waitOpen (some (.error e)) → e = .closed)
    (h : (c.onEvent event).stage = .waitOpen (some (.error e))) : e = .closed := by
  unfold Send.onEvent at h
  split at h
  · cases h
  · cases h; rfl
  · cases h; rfl
  · cases h
  · exact hc e h

/-- A call that ended stays as it was when calls and messages are added. -/
theorem Ended.mono (h : s.Ended) {o : Outbound} {c : Send} (hc : c ∈ s.outbound.sends)
    (ht : ∀ m ∈ s.outbound.taken, m ∈ o.taken) : ∀ r, c.result = some r →
      r = .ok () ∧ c.message ∈ o.taken ∨ r = .error .closed := fun r hr =>
  (h c hc r hr).imp_left fun ⟨hok, hm⟩ => ⟨hok, ht _ hm⟩

/-- A call goes on within its waits: nothing ends, nothing is taken. -/
theorem Inv.setStage (hi : s.Inv) {k threshold : Nat} {c : Send} {resolved : Bool}
    (hresolved : s.closeDispatched = true → resolved = true) :
    Inv { s with
      outbound := { s.outbound.setStage k c (.waitForDrain resolved) with
        bufferedAmountLowThreshold := threshold } } where
  closed := hi.closed
  released hd := by
    refine Entries.forall_mem_set (hi.released hd) ?_
    rw [hresolved hd]
    rintro (h | h) <;> cases h
  rejected := Entries.forall_mem_set hi.rejected nofun
  ended := Entries.forall_mem_set hi.ended nofun

/-- A call ends, with its message handed over or with `closed`. -/
theorem Inv.setDone (hi : s.Inv) {k : Nat} {c : Send} {r : Except Error Unit}
    {taken : List Message} (ht : ∀ m ∈ s.outbound.taken, m ∈ taken)
    (hr : r = .ok () ∧ c.message ∈ taken ∨ r = .error .closed) :
    Inv { s with outbound := { s.outbound.setStage k c (.done r) with taken } } where
  closed := hi.closed
  released hd := Entries.forall_mem_set (hi.released hd) (by rintro (h | h) <;> cases h)
  rejected := Entries.forall_mem_set hi.rejected nofun
  ended := by
    refine Entries.forall_mem_set (fun c hc => ?_) fun r' hr' => ?_
    · exact hi.ended.mono (o := { s.outbound with taken }) hc ht
    · cases hr'
      exact hr

/-- A call ends with `closed`. -/
theorem Inv.setClosed (hi : s.Inv) {k : Nat} {c : Send} :
    Inv { s with outbound := s.outbound.setStage k c (.done (.error .closed)) } :=
  @Inv.setDone s hi k c _ s.outbound.taken (fun _ hm => hm) (.inr rfl)

/-- An event is dispatched, and no call is stranded by the last one. -/
theorem Inv.fires (hi : s.Inv) {event : ChannelEvent} {d : Bool}
    (hclosed : d = true → s.outbound.readyState = .closed)
    (hreleased : d = true → ∀ c ∈ s.outbound.sends, ¬ (c.onEvent event).Stranded) :
    Inv ⟨{ s.outbound with sends := s.outbound.sends.map (Send.onEvent event) }, d⟩ where
  closed := hclosed
  released hd c hc := by
    obtain ⟨c, hmem, rfl⟩ := List.mem_map.1 hc
    exact hreleased hd c hmem
  rejected c hc e he := by
    obtain ⟨c, hmem, rfl⟩ := List.mem_map.1 hc
    exact rejected_onEvent (hi.rejected c hmem) he
  ended c hc r hr := by
    obtain ⟨c, hmem, rfl⟩ := List.mem_map.1 hc
    obtain ⟨hm, hres⟩ := Outbound.onEvent_result event c
    rw [hm]
    exact hi.ended c hmem r (hres ▸ hr)

/-- A step that heeds the close keeps the invariant. -/
theorem Inv.step (hi : s.Inv) (hC : s.Heeded a) (h : s.step a = some s') : s'.Inv := by
  obtain ⟨hallowed, o, d, heffect, rfl, hd⟩ := step_eq_some h
  rcases hd with ⟨rfl, rfl⟩ | ⟨hne, rfl⟩
  · -- the event settles the waits for the opening, and nobody waits for the buffer
    cases heffect
    refine hi.fires (fun _ => hallowed.1) fun _ c hc => ?_
    rw [stranded_onEvent_close]
    exact hC c hc
  cases heffect with
  | @made message =>
    refine ⟨hi.closed, fun hd => ?_, ?_, Entries.forall_mem_append hi.ended nofun⟩
    · refine Entries.forall_mem_append (hi.released hd) ?_
      rw [waitOpen_of_closed (hi.closed hd)]
      rintro (h | h) <;> cases h
    · refine Entries.forall_mem_append hi.rejected fun e he => ?_
      unfold Outbound.waitOpen at he
      split at he <;> first | (cases he; rfl) | cases he
  | @shows state =>
    refine ⟨fun hd => ?_, hi.released, hi.rejected, hi.ended⟩
    -- a closed channel has no state to move on to
    have hlt : s.outbound.readyState.rank < state.rank := hallowed
    rw [hi.closed hd] at hlt
    cases state <;> simp [ReadyState.rank] at hlt
  | fills => exact ⟨hi.closed, hi.released, hi.rejected, hi.ended⟩
  | @fires event =>
    exact hi.fires hi.closed fun hd c hc hs => hi.released hd c hc (stranded_of_onEvent hs)
  | @rejects k c e answer hk hc =>
    obtain rfl : e = .closed := hi.rejected c (List.mem_of_getElem? hk) e hc
    exact hi.setClosed
  | passes => exact hi.setStage fun _ => rfl
  | @waits k c answer hk hc hlt =>
    exact hi.setStage fun hd => absurd (hC hd c hk hc) (Nat.not_le_of_lt hlt)
  | @hands k c answer hk hc =>
    cases answer with
    | ok u =>
      exact hi.setDone (fun _ hm => List.mem_append_left _ hm)
        (.inl ⟨rfl, List.mem_append_right _ (List.mem_singleton_self _)⟩)
    | error reason => exact hi.setClosed

/-- A step that does not heed the close strands a call. -/
theorem not_released_step (hi : s.Inv) (hC : ¬ s.Heeded a) (h : s.step a = some s') :
    ¬ s'.Released := by
  intro hr
  obtain ⟨hallowed, o, d, heffect, rfl, hd⟩ := step_eq_some h
  rcases hd with ⟨rfl, rfl⟩ | ⟨hne, rfl⟩
  · cases heffect
    refine hC fun c hc hwait => ?_
    exact hr.released hallowed.1 rfl _ (List.mem_map_of_mem hc) ((stranded_onEvent_close c).2 hwait)
  cases heffect with
  | made | shows | fills => exact hC trivial
  | @fires event =>
    cases event with
    | close => exact hne rfl
    | «open» | error | bufferedAmountLow => exact hC trivial
  | rejects hk hc | hands hk hc =>
    refine hC fun _ c' hk' hc' => ?_
    obtain rfl := Option.some.inj (hk.symm.trans hk')
    cases hc.symm.trans hc'
  | passes hk hc hle => exact hC fun _ _ _ _ => hle
  | @waits k c answer hk hc hlt =>
    by_cases hd : s.closeDispatched = true
    · exact hr.released (hi.closed hd) hd _ (Entries.mem_set_self hk) (.inr rfl)
    · exact hC fun h => absurd h hd

/-- **When no send is left behind.** Along every run, in every state in which the channel is closed
and its `close` event dispatched no `send` awaits what will not come, every one that ended has
handed its message over or was rejected with `closed`, and one whose promise is settled goes on to
its end, exactly when no call waits for the buffer as the event comes or begins to after. -/
theorem sends_released_iff {state : ReadyState} {as : List SendAct} {s : Closable}
    (h : Runs.run step (new state) as = some s) :
    Runs.Along step Released (new state) as ↔ Runs.Meets step Heeded (new state) as :=
  Runs.along_iff_meets (fun _ hi => hi.isReleased) (fun _ _ _ hi hC hs => hi.step hC hs)
    (fun _ _ _ hi hC hs => not_released_step hi hC hs) (inv_new state) h

/-- One call is handed over, one waits for the opening while the channel closes. -/
theorem sends_released_iff_of_opening :
    Runs.Along step Released (new .connecting)
      [.send (.string "a"), .readyState .open, .event .open, .resume 0 (.ok ()),
        .resume 0 (.ok ()), .readyState .closing, .readyState .closed, .event .close,
        .send (.string "b"), .resume 1 (.ok ())] ∧
    Runs.Along step Released (new .connecting)
      [.send (.string "a"), .readyState .closed, .event .error, .event .close,
        .resume 0 (.ok ())] := by
  refine ⟨(sends_released_iff rfl).2 ?_, (sends_released_iff rfl).2 ?_⟩
  · iterate 3 refine (Runs.meets_cons rfl).2 ⟨trivial, ?_⟩
    iterate 2 refine (Runs.meets_cons rfl).2 ⟨nofun, ?_⟩
    iterate 2 refine (Runs.meets_cons rfl).2 ⟨trivial, ?_⟩
    refine (Runs.meets_cons rfl).2 ⟨?_, ?_⟩
    · intro c hc
      cases List.mem_singleton.1 hc
      nofun
    refine (Runs.meets_cons rfl).2 ⟨trivial, ?_⟩
    exact (Runs.meets_cons rfl).2 ⟨fun _ _ _ _ => Nat.zero_le _, trivial⟩
  · iterate 3 refine (Runs.meets_cons rfl).2 ⟨trivial, ?_⟩
    refine (Runs.meets_cons rfl).2 ⟨?_, ?_⟩
    · intro c hc
      cases List.mem_singleton.1 hc
      nofun
    exact (Runs.meets_cons rfl).2 ⟨fun _ _ _ _ => Nat.zero_le _, trivial⟩

/-- A call waits for the buffer of an open channel, and the channel closes; another has found the
channel open, and begins to wait for the buffer once it is closed. Neither goes on. -/
theorem send_stranded :
    (∃ s, Runs.run step (new .open)
        [.bufferedAmount 9000000, .send (.string "a"), .resume 0 (.ok ()), .readyState .closed,
          .event .close] = some s ∧
      s.outbound.sends = [⟨.string "a", .waitForDrain false⟩] ∧ ¬ s.Released) ∧
    ∃ s, Runs.run step (new .open)
        [.bufferedAmount 9000000, .send (.string "a"), .readyState .closed, .event .close,
          .resume 0 (.ok ())] = some s ∧
      s.outbound.sends = [⟨.string "a", .waitForDrain false⟩] ∧ ¬ s.Released := by
  refine ⟨⟨_, rfl, rfl, ?_⟩, ⟨_, rfl, rfl, ?_⟩⟩
  · exact fun hr => hr.released rfl rfl _ (List.mem_singleton_self _) (.inr rfl)
  · exact fun hr => hr.released rfl rfl _ (List.mem_singleton_self _) (.inr rfl)

end Closable

end WebrtcDatachannels.Jco
