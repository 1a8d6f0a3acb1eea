import WebrtcDatachannels.Host.DataChannel

/-!
# Receiving on a Wasmtime data channel

Two promises of `receive`, over every run of a channel. A granted `receive_via_stream` is meant to
be exclusive (`DataChannel.Exclusive`), and what the calls return and the stream yields to be what
arrived: so it is, in every state of a run, exactly when no call that races at the claim is polled
with its inbound future ready (`stream_exclusive_iff`), because the race is biased towards that
future. An overflow is meant to be reported as one (`DataChannel.Reported`): it is exactly when no
call is polled after it with the wiring failed, or with the close signal fired and its inbound
future not ready (`overflow_reported_iff`).
-/

namespace WebrtcDatachannels.Host

namespace DataChannel

variable {d d' : DataChannel} {a : DataChannelAct} {k : Nat}

/-! ## The mutex of the queue -/

/-- Whom the mutex may belong to: a racing call, or a stream of a claimed channel. -/
def Owns (d : DataChannel) : Holder → Prop
  | .call k => d.calls[k]? = some .racing
  | .stream _ => d.streamReceiving = true

/-- The mutex is behind a resolved wiring, and taken by one whom it may belong to. -/
def LockHeld (d : DataChannel) : Prop :=
  ∀ h, d.inbound.lock = some h → d.inbound.wired = some (.ok ()) ∧ d.Owns h

/-- The same calls and the same claim. -/
theorem Owns.congr {h : Holder} (ho : d.Owns h) (hc : d'.calls = d.calls)
    (hs : d'.streamReceiving = d.streamReceiving) : d'.Owns h := by
  cases h with
  | call k => exact (congrArg (·[k]?) hc).trans ho
  | stream j => exact hs.trans ho

/-- Another call's end leaves the mutex with whom it belongs to. -/
theorem Owns.set {call : ReceiveCall} {h : Holder} (ho : d.Owns h) (hne : h ≠ .call k)
    (hc : d'.calls = d.calls.set k call) (hs : d'.streamReceiving = d.streamReceiving) :
    d'.Owns h := by
  cases h with
  | call k' =>
    have hk : k ≠ k' := fun he => hne (by rw [he])
    exact (congrArg (·[k']?) hc).trans ((List.getElem?_set_ne hk).trans ho)
  | stream j => exact hs.trans ho

/-- Whoever has the mutex after a step had it before, or takes it. -/
theorem LockHeld.keep (hi : d.LockHeld)
    (hw : d.inbound.wired = some (.ok ()) → d'.inbound.wired = some (.ok ()))
    (hl : ∀ h, d'.inbound.lock = some h → d.inbound.lock = some h ∧ (d.Owns h → d'.Owns h) ∨
      d.inbound.wired = some (.ok ()) ∧ d'.Owns h) : d'.LockHeld := by
  intro h hh
  obtain ⟨hlock, hown⟩ | ⟨hwired, hown⟩ := hl h hh
  · obtain ⟨hwired, ho⟩ := hi h hlock
    exact ⟨hw hwired, hown ho⟩
  · exact ⟨hw hwired, hown⟩

/-- A dropped future's holder does not have the mutex. -/
theorem lock_of_dropFuture {i : Inbound} {h h' : Holder} (hl : (i.dropFuture h').lock = some h) :
    i.lock = some h ∧ h ≠ h' := by
  rw [Inbound.lock_dropFuture] at hl
  split at hl
  · cases hl
  · next hne => exact ⟨hl, fun he => hne (he ▸ hl)⟩

/-- A verdict leaves the wiring alone. -/
theorem Verdict.wired {outcome : Except WebrtcError InboundMessage} {i : Inbound}
    (hv : d.Verdict k outcome i) : i.wired = d.inbound.wired := by
  cases hv with
  | refused => rfl
  | ready _ hp => exact hp.wired
  | woken _ hp | closed _ hp => exact (Inbound.same_dropFuture _ _).wired.trans hp.wired

/-- A verdict gives the mutex back. -/
theorem Verdict.lock {outcome : Except WebrtcError InboundMessage} {i : Inbound} {h : Holder}
    (hv : d.Verdict k outcome i) (hi : d.LockHeld) (hl : i.lock = some h) :
    d.inbound.lock = some h ∧ h ≠ .call k := by
  cases hv with
  | refused hk =>
    refine ⟨hl, ?_⟩
    rintro rfl
    cases hk.symm.trans (hi _ hl).2
  | ready _ hp =>
    cases hp with
    | message _ _ _ _ _ _ _ _ hnone => cases hnone.symm.trans hl
    | failed _ _ _ hkeep =>
      obtain ⟨hw, hkeep⟩ | hnone := hkeep
      · cases hw.symm.trans (hi h (hkeep ▸ hl)).1
      · cases hnone.symm.trans hl
  | woken _ hp | closed _ hp =>
    obtain ⟨hl, hne⟩ := lock_of_dropFuture hl
    cases hp with
    | pending _ _ hkeep =>
      obtain hkeep | ⟨-, htake⟩ := hkeep
      · exact ⟨hkeep ▸ hl, hne⟩
      · exact absurd (Option.some.inj (hl.symm.trans htake)) hne

/-- A step keeps the mutex with whom it belongs to. -/
theorem Effect.lockHeld (he : d.Effect a d') (hst : d.streamReceiving = false → d.streams = [])
    (hi : d.LockHeld) : d'.LockHeld := by
  cases he with
  | transport hm =>
    exact hi.keep hm.wired fun h hh => .inl ⟨hm.lock ▸ hh, fun ho => ho.congr rfl rfl⟩
  | fired | rejected => exact hi
  | claimed =>
    refine hi.keep id fun h hh => .inl ⟨hh, fun ho => ?_⟩
    cases h with
    | call k => exact ho
    | stream j => rfl
  | called =>
    refine hi.keep id fun h hh => .inl ⟨hh, fun ho => ?_⟩
    cases h with
    | call k => exact (List.getElem?_append_left (List.getElem?_eq_some_iff.1 ho).1).trans ho
    | stream j => exact ho
  | @parked k i hk hp =>
    cases hp with
    | pending hs _ hkeep =>
      have hself : (d.calls.set k .racing)[k]? = some .racing := List.getElem?_set_self hk.lt
      refine hi.keep hs.wired.trans fun h hh => ?_
      by_cases hne : h = .call k
      · obtain hkeep | ⟨hw, -⟩ := hkeep
        · exact .inl ⟨hkeep ▸ hh, fun _ => hne ▸ hself⟩
        · exact .inr ⟨hw, hne ▸ hself⟩
      · obtain hkeep | ⟨-, htake⟩ := hkeep
        · exact .inl ⟨hkeep ▸ hh, fun ho => ho.set hne rfl rfl⟩
        · exact absurd (Option.some.inj (hh.symm.trans htake)) hne
  | returned hv =>
    refine hi.keep hv.wired.trans fun h hh => ?_
    obtain ⟨hlock, hne⟩ := hv.lock hi hh
    exact .inl ⟨hlock, fun ho => ho.set hne rfl rfl⟩
  | cancelled =>
    refine hi.keep (Inbound.same_dropFuture _ _).wired.trans fun h hh => ?_
    obtain ⟨hlock, hne⟩ := lock_of_dropFuture hh
    exact .inl ⟨hlock, fun ho => ho.set hne rfl rfl⟩
  | produced hj hp hs hback =>
    refine hi.keep (hs.wired.trans hp.wired).trans fun h hh => ?_
    obtain hback | hnone := hback
    · rw [hback] at hh
      cases hp with
      | pending _ _ hkeep =>
        obtain hkeep | ⟨hw, htake⟩ := hkeep
        · exact .inl ⟨hkeep ▸ hh, fun ho => ho.congr rfl rfl⟩
        · cases hh.symm.trans htake
          refine .inr ⟨hw, ?_⟩
          by_contra hno
          rw [hst (eq_false_of_ne_true hno)] at hj
          cases hj
      | failed _ _ _ hkeep =>
        obtain ⟨-, hkeep⟩ | hnone := hkeep
        · exact .inl ⟨hkeep ▸ hh, fun ho => ho.congr rfl rfl⟩
        · cases hnone.symm.trans hh
      | message _ _ _ _ _ _ _ _ hnone => cases hnone.symm.trans hh
    · cases hnone.symm.trans hh
  | dropped =>
    refine hi.keep (Inbound.same_dropFuture _ _).wired.trans fun h hh => ?_
    exact .inl ⟨(lock_of_dropFuture hh).1, fun ho => ho.congr rfl rfl⟩

/-! ## The exclusive stream -/

/-- The result of a call that took a message. -/
def resultOf : Delivery → Option (Except WebrtcError Message)
  | .returned c => if c.outcome.isOk then some c.result else none
  | .yielded _ => none

/-- The element of a stream. -/
def elementOf : Delivery → Option StreamMessage
  | .returned _ => none
  | .yielded message => some message

/-- The results of the calls that took a message, in the order in which they returned. -/
def results (d : DataChannel) : List (Except WebrtcError Message) := d.delivered.filterMap resultOf

/-- The elements that streams have yielded, in order. -/
def elements (d : DataChannel) : List StreamMessage := d.delivered.filterMap elementOf

/-- The messages are received exclusively. The first `receive_via_stream` call is granted a stream
and every other refused; a `receive` that returns after the claim returns `ReceivingViaStream`, and
one that is polled after it returns; a poll of the stream that can have the queue yields the oldest
message in it, only a racing `receive` keeps the queue from the stream, and a poll ends the stream
only on a dead connection, a failed wiring or a drained queue that has ended; and the messages that
`receive`s have returned, then those that the stream has yielded, then the queue are what arrived,
in order. -/
structure Exclusive (d : DataChannel) : Prop where
  granted : d.claims = [] → ∃ d', d.step .receiveViaStream = some d' ∧ d'.claims = [.ok ()] ∧
    d'.streams = [.live]
  once : d.claims = [] ∨ d.streams.length = 1 ∧
    ∃ n, d.claims = .ok () :: List.replicate n (.error .receivingViaStream)
  claimed : d.streamReceiving = true ↔ d.claims ≠ []
  refused : ∀ c, .done c ∈ d.calls → c.claimed = true → c.outcome = .error .receivingViaStream
  resolves : d.streamReceiving = true → ∀ k call, d.calls[k]? = some call → call.Live →
    ∃ d' c, d.step (.poll k) = some d' ∧ .done c ∈ d'.calls ∧ c.claimed = true
  yields : ∀ j m rest finish, d.inbound.wired = some (.ok ()) →
    (d.inbound.lock = none ∨ d.inbound.lock = some (.stream j)) → d.inbound.queue = m :: rest →
    (d.pollProduce j finish).1 = .completed (toStreamMessage m)
  held : ∀ h, d.inbound.lock = some h →
    (∃ k, h = .call k ∧ d.calls[k]? = some .racing) ∨
      ∃ j, h = .stream j ∧ d.streamReceiving = true
  ends : ∀ j finish, (d.pollProduce j finish).1 = .dropped → d.connClosed = true ∨
    (∃ e, d.inbound.wired = some (.error e)) ∨ d.inbound.queue = [] ∧ d.inbound.pump = .ended
  exact : ∃ handed streamed, d.results = handed.map toMessage ∧
    d.elements = streamed.map toStreamMessage ∧
    handed ++ streamed ++ d.inbound.queue = d.inbound.accepted

/-- No call that races at the claim is polled after it with its inbound future ready. -/
def Woken (d : DataChannel) : DataChannelAct → Prop
  | .poll k => d.streamReceiving = true → d.calls[k]? = some .racing →
      ¬ d.inbound.Ready (.call k)
  | _ => True

/-- The channel is unclaimed and has no stream, or the first claim was granted and the others were
refused. -/
def ClaimedOnce (d : DataChannel) : Prop :=
  d.streamReceiving = false ∧ d.claims = [] ∧ d.streams = [] ∨
    d.streamReceiving = true ∧ d.streams.length = 1 ∧
      ∃ n, d.claims = .ok () :: List.replicate n (.error .receivingViaStream)

/-- An unclaimed channel has no stream. -/
theorem ClaimedOnce.unclaimed (h : d.ClaimedOnce) (hs : d.streamReceiving = false) :
    d.streams = [] := by
  obtain ⟨-, -, hst⟩ | ⟨hr, -⟩ := h
  · exact hst
  · rw [hs] at hr
    cases hr

/-- What carries exclusivity over a run. -/
structure ClaimInv (d : DataChannel) : Prop where
  inbound : d.inbound.Inv
  lock : d.LockHeld
  delivers : Delivers d.inbound.popped d.delivered
  tx : d.TxUntilClaimed
  claims : d.ClaimedOnce
  refused : ∀ c, .done c ∈ d.calls → c.claimed = true → c.outcome = .error .receivingViaStream
  early : d.streamReceiving = false → d.streamed = []
  sorted : d.handed ++ d.streamed = d.inbound.popped.map Prod.snd

/-- A live call can be polled. -/
theorem pollReceive_of_live {call : ReceiveCall} (hk : d.calls[k]? = some call)
    (hlive : call.Live) : ∃ d', d.pollReceive k = some d' := by
  cases call with
  | start =>
    simp only [pollReceive, hk]
    split <;> exact ⟨_, rfl⟩
  | racing =>
    simp only [pollReceive, hk]
    exact ⟨_, rfl⟩
  | done | cancelled => cases hlive

/-- A poll that is not parked ends the call. -/
theorem step_poll_of_live {call : ReceiveCall} (hk : d.calls[k]? = some call) (hlive : call.Live)
    (hp : ∀ i, d.Races k → d.inbound.Polled (.call k) none i → d.startedTx = true → False) :
    ∃ d' outcome, d.step (.poll k) = some d' ∧
      d'.calls[k]? = some (.done (d.completion outcome)) ∧ d.Verdict k outcome d'.inbound := by
  obtain ⟨d', hd⟩ := pollReceive_of_live hk hlive
  cases received hd with
  | parked hk hpoll hs => exact (hp _ hk hpoll hs).elim
  | returned hv hlt =>
    refine ⟨_, _, Option.map_eq_some_iff.2 ⟨_, hd, rfl⟩, ?_, hv⟩
    exact List.getElem?_set_self hlt

/-- A claimed channel gives every polled call its end. -/
theorem resolves (htx : d.TxUntilClaimed) (hs : d.streamReceiving = true) {call : ReceiveCall}
    (hk : d.calls[k]? = some call) (hlive : call.Live) :
    ∃ d' c, d.step (.poll k) = some d' ∧ .done c ∈ d'.calls ∧ c.claimed = true := by
  obtain ⟨d', outcome, hd, hc, -⟩ := step_poll_of_live hk hlive fun i _ _ hs' => by
    rw [htx, hs] at hs'
    cases hs'
  exact ⟨d', _, hd, List.mem_of_getElem? hc, hs⟩

/-- The calls' results are the messages that calls took. -/
theorem Delivers.results {popped : List (Holder × InboundMessage)} {delivered : List Delivery}
    (h : Delivers popped delivered) :
    delivered.filterMap resultOf = (popped.filterMap handed?).map toMessage := by
  induction h with
  | nil => rfl
  | failed _ hc ih => simp [ih, resultOf, hc, Except.isOk, Except.toBool]
  | call _ hc ih =>
    simp [ih, resultOf, handed?, hc, Except.isOk, Except.toBool, Completion.result, Except.bind]
  | stream _ ih => simp [ih, resultOf, handed?, List.filterMap_cons]

/-- The streams' elements are the messages that streams took. -/
theorem Delivers.elements {popped : List (Holder × InboundMessage)} {delivered : List Delivery}
    (h : Delivers popped delivered) :
    delivered.filterMap elementOf = (popped.filterMap streamed?).map toStreamMessage := by
  induction h with
  | nil => rfl
  | failed _ _ ih => simp [ih, elementOf]
  | call _ _ ih => simp [ih, elementOf, streamed?, List.filterMap_cons]
  | stream _ ih => simp [ih, elementOf, streamed?]

/-- The first claim is granted a stream. -/
theorem granted (htx : d.TxUntilClaimed) (h : d.ClaimedOnce) (hnone : d.claims = []) :
    ∃ d', d.step .receiveViaStream = some d' ∧ d'.claims = [.ok ()] ∧ d'.streams = [.live] := by
  obtain ⟨hs, -, hst⟩ | ⟨-, -, n, hc⟩ := h
  · rw [TxUntilClaimed, hs, Bool.not_false] at htx
    simp [step, receiveViaStream, beginStreamReceiving, htx, hnone, hst]
  · cases hnone.symm.trans hc

/-- A poll ends the stream on a dead connection, or as the inbound future does. -/
theorem ends_of_dropped {j : Nat} {finish : Bool} (h : (d.pollProduce j finish).1 = .dropped) :
    d.connClosed = true ∨ (∃ e, d.inbound.wired = some (.error e)) ∨
      d.inbound.queue = [] ∧ d.inbound.pump = .ended := by
  have hp := d.inbound.pollNext_cases (.stream j)
  rcases hpoll : d.inbound.pollNext (.stream j) with ⟨r, i⟩
  rw [hpoll] at hp
  simp only [pollProduce, Inbound.pollStream_eq, hpoll] at h
  cases hp with
  | message => cases h
  | pending =>
    simp only [Option.map_none] at h
    split at h
    · next hc => exact .inl hc
    · split at h <;> cases h
  | failed _ hr he =>
    obtain he | ⟨hw, hq, -⟩ := he
    · exact .inr (.inl ⟨_, he⟩)
    · simp only [Inbound.Ready, hw] at hr
      exact .inr (.inr ⟨hq, hr.2.resolve_left (not_not_intro hq)⟩)

/-- The invariant gives the promise. -/
theorem ClaimInv.exclusive (hi : d.ClaimInv) : d.Exclusive where
  granted := granted hi.tx hi.claims
  once := hi.claims.imp (fun h => h.2.1) fun h => h.2
  claimed := by
    obtain ⟨hs, hc, -⟩ | ⟨hs, -, n, hc⟩ := hi.claims <;> simp [hs, hc]
  refused := hi.refused
  resolves hs k call hk hlive := resolves hi.tx hs hk hlive
  yields j m rest finish hw hl hq := by
    simp only [pollProduce, Inbound.pollStream, hw, Inbound.pollQueue, if_pos hl, hq]
  held h hl := by
    obtain ⟨-, hown⟩ := hi.lock h hl
    cases h with
    | call k => exact .inl ⟨k, rfl, hown⟩
    | stream j => exact .inr ⟨j, rfl, hown⟩
  ends _ _ := ends_of_dropped
  exact := ⟨d.handed, d.streamed, hi.delivers.results, hi.delivers.elements, by
    rw [hi.sorted]
    exact hi.inbound.fifo⟩

/-- Who pops in a step: nobody, a racing call whose inbound future is ready, or a live stream. -/
inductive Pops (d : DataChannel) (a : DataChannelAct) (d' : DataChannel) : Prop where
  | none (hp : d'.inbound.popped = d.inbound.popped)
  | call {k : Nat} {m : InboundMessage} (ha : a = .poll k) (hk : d.Races k)
      (hr : d.inbound.Ready (.call k))
      (hp : d'.inbound.popped = d.inbound.popped ++ [(.call k, m)])
  | stream {j : Nat} {m : InboundMessage} (hj : d.streams[j]? = some .live)
      (hp : d'.inbound.popped = d.inbound.popped ++ [(.stream j, m)])

/-- A step pops at most one message. -/
theorem Effect.pops (he : d.Effect a d') : d.Pops a d' := by
  cases he with
  | transport hm => exact .none hm.popped
  | parked _ hp =>
    cases hp with
    | pending hs => exact .none hs.popped
  | returned hv =>
    cases hv with
    | refused => exact .none rfl
    | ready hk hp =>
      cases hp with
      | failed hs => exact .none hs.popped
      | message hr _ _ hp => exact .call rfl hk hr hp
    | woken _ hp | closed _ hp =>
      cases hp with
      | pending hs => exact .none ((Inbound.same_dropFuture _ _).popped.trans hs.popped)
  | produced hj hp hs =>
    cases hp with
    | pending hs' | failed hs' => exact .none (hs.popped.trans hs'.popped)
    | message _ _ _ hp => exact .stream hj (hs.popped.trans hp)
  | cancelled | dropped => exact .none (Inbound.same_dropFuture _ _).popped
  | fired | called | claimed | rejected => exact .none rfl

/-- A step that pops nothing hands over and streams nothing. -/
theorem handed_of_same (hp : d'.inbound.popped = d.inbound.popped) :
    d'.handed = d.handed ∧ d'.streamed = d.streamed := by
  rw [handed, handed, streamed, streamed, hp]
  exact ⟨rfl, rfl⟩

theorem handed_of_call {m : InboundMessage}
    (hp : d'.inbound.popped = d.inbound.popped ++ [(.call k, m)]) :
    d'.handed = d.handed ++ [m] ∧ d'.streamed = d.streamed := by
  simp [handed, streamed, handed?, streamed?, hp, List.filterMap_cons]

theorem handed_of_stream {j : Nat} {m : InboundMessage}
    (hp : d'.inbound.popped = d.inbound.popped ++ [(.stream j, m)]) :
    d'.handed = d.handed ∧ d'.streamed = d.streamed ++ [m] := by
  simp [handed, streamed, handed?, streamed?, hp, List.filterMap_cons]

/-- Whether and how often the channel was claimed. -/
theorem Effect.claims (he : d.Effect a d') (htx : d.TxUntilClaimed) (h : d.ClaimedOnce) :
    d'.ClaimedOnce := by
  cases he with
  | claimed hs =>
    obtain ⟨-, hc, hst⟩ | ⟨hr, -⟩ := h
    · exact .inr ⟨rfl, by rw [hst]; rfl, 0, by rw [hc]; rfl⟩
    · rw [htx, hr] at hs
      cases hs
  | rejected hs =>
    obtain ⟨hr, -⟩ | ⟨hr, hone, n, hc⟩ := h
    · rw [htx, hr] at hs
      cases hs
    · exact .inr ⟨hr, hone, n + 1, by rw [hc, List.replicate_succ']; rfl⟩
  | produced hj _ _ _ hlen =>
    obtain ⟨-, -, hst⟩ | ⟨hr, hone, hc⟩ := h
    · rw [hst] at hj
      cases hj
    · exact .inr ⟨hr, hlen.trans hone, hc⟩
  | dropped hj =>
    obtain ⟨-, -, hst⟩ | ⟨hr, hone, hc⟩ := h
    · rw [hst] at hj
      cases hj
    · exact .inr ⟨hr, List.length_set.trans hone, hc⟩
  | transport | fired | called | parked | returned | cancelled => exact h

/-- The flag is never cleared. -/
theorem Effect.unclaimed (he : d.Effect a d') (h : d'.streamReceiving = false) :
    d.streamReceiving = false := by
  cases he with
  | claimed => cases h
  | _ => exact h

/-- A step keeps the invariant when the polled call, racing since before the claim, is not ready. -/
theorem ClaimInv.step (hi : d.ClaimInv) (hC : d.Woken a) (h : d.step a = some d') :
    d'.ClaimInv := by
  have he := step_effect h
  have hlate : ∀ {k}, a = .poll k → d.Races k → d.inbound.Ready (.call k) →
      d.streamReceiving = false := by
    rintro k rfl hk hr
    by_contra hs
    obtain hk | ⟨-, hs'⟩ := hk
    · exact hC (eq_true_of_ne_false hs) hk hr
    · exact hs hs'
  refine ⟨he.inv hi.inbound, he.lockHeld hi.claims.unclaimed hi.lock, he.delivers hi.delivers,
    he.tx hi.tx, he.claims hi.tx hi.claims, ?_, ?_, ?_⟩
  · intro c hc hcl
    obtain hc | ⟨k, outcome, i, ha, hv, -, rfl⟩ := he.done hc
    · exact hi.refused c hc hcl
    · have hs : d.streamReceiving = true := hcl
      cases hv with
      | refused | woken => rfl
      | ready hk hp =>
        have hready : d.inbound.Ready (.call k) := by
          cases hp with
          | failed _ hr | message hr => exact hr
        rw [hlate ha hk hready] at hs
        cases hs
      | closed _ _ htx =>
        rw [hi.tx, hs] at htx
        cases htx
  · intro hs
    have hs' := he.unclaimed hs
    cases he.pops with
    | none hp => rw [(handed_of_same hp).2]; exact hi.early hs'
    | call _ _ _ hp => rw [(handed_of_call hp).2]; exact hi.early hs'
    | stream hj =>
      obtain ⟨-, -, hst⟩ | ⟨hr, -⟩ := hi.claims
      · rw [hst] at hj
        cases hj
      · rw [hr] at hs'
        cases hs'
  · cases he.pops with
    | none hp =>
      rw [(handed_of_same hp).1, (handed_of_same hp).2, hp]
      exact hi.sorted
    | call ha hk hr hp =>
      -- no stream has popped before
      have hnil := hi.early (hlate ha hk hr)
      have hsorted := hi.sorted
      rw [hnil, List.append_nil] at hsorted
      rw [(handed_of_call hp).1, (handed_of_call hp).2, hnil, hp, hsorted]
      simp
    | stream _ hp =>
      rw [(handed_of_stream hp).1, (handed_of_stream hp).2, hp, ← List.append_assoc, hi.sorted]
      simp

end DataChannel

namespace DataChannel

variable {d d' : DataChannel} {a : DataChannelAct} {k : Nat}

/-! ## The report of an overflow -/

/-- The overflow is reported: a `receive` that returns after it on an unclaimed channel returns one
of the messages that had arrived before it, or, with the queue drained, `ReceiveBufferOverflow`. One
that is polled once it can have the queue, and a message is queued or the pump has ended, does
return so; and only a call that awaits the queue keeps it from another. -/
structure Reported (d : DataChannel) : Prop where
  returned : ∀ c, .done c ∈ d.calls → c.overflowed = true → c.claimed = false →
    ∃ b, d.inbound.backlog = some b ∧
      ((∃ m ∈ b, c.outcome = .ok m) ∨
        c.outcome = .error .receiveBufferOverflow ∧ d.inbound.queue = [])
  resolves : d.inbound.budget.overflowed = true → d.streamReceiving = false →
    d.inbound.wired = some (.ok ()) → ∀ k call, d.calls[k]? = some call → call.Live →
    d.inbound.Ready (.call k) → ∃ d' c, d.step (.poll k) = some d' ∧
      d'.calls[k]? = some (.done c) ∧
      ((∃ m, d.inbound.queue = m :: d'.inbound.queue ∧ c.outcome = .ok m) ∨
        d.inbound.queue = [] ∧ c.outcome = .error .receiveBufferOverflow)
  held : d.streamReceiving = false → ∀ h, d.inbound.lock = some h →
    ∃ k, h = .call k ∧ d.calls[k]? = some .racing

/-- A call polled after the overflow on an unclaimed channel finds the wiring unfailed and, when the
close signal has fired, its inbound future ready. -/
def Undisturbed (d : DataChannel) : DataChannelAct → Prop
  | .poll k => d.inbound.budget.overflowed = true → d.streamReceiving = false →
      (∃ call, d.calls[k]? = some call ∧ call.Live) →
      (∀ e, d.inbound.wired ≠ some (.error e)) ∧ (d.connClosed = true → d.inbound.Ready (.call k))
  | _ => True

/-- What carries the report over a run. -/
structure ReportInv (d : DataChannel) : Prop where
  inbound : d.inbound.Inv
  tx : d.TxUntilClaimed
  claims : d.ClaimedOnce
  lock : d.LockHeld
  reported : d.Reported

theorem reportInv_deferred (limit : Nat) : (deferred limit).ReportInv where
  inbound := Inbound.inv_deferred limit
  tx := rfl
  claims := .inl ⟨rfl, rfl, rfl⟩
  lock := nofun
  reported := ⟨nofun, nofun, nofun⟩

/-- A racing call is live. -/
theorem Races.live (h : d.Races k) : ∃ call, d.calls[k]? = some call ∧ call.Live := by
  obtain hk | ⟨hk, -⟩ := h <;> exact ⟨_, hk, trivial⟩

/-- A call that can have the queue, with a message in it or the pump ended, returns the message or
the overflow. -/
theorem reports (htx : d.TxUntilClaimed) (ho : d.inbound.budget.overflowed = true)
    (hs : d.streamReceiving = false) (hw : d.inbound.wired = some (.ok ())) {call : ReceiveCall}
    (hk : d.calls[k]? = some call) (hlive : call.Live) (hr : d.inbound.Ready (.call k)) :
    ∃ d' c, d.step (.poll k) = some d' ∧ d'.calls[k]? = some (.done c) ∧
      ((∃ m, d.inbound.queue = m :: d'.inbound.queue ∧ c.outcome = .ok m) ∨
        d.inbound.queue = [] ∧ c.outcome = .error .receiveBufferOverflow) := by
  obtain ⟨d', outcome, hd, hc, hv⟩ := step_poll_of_live hk hlive fun i _ hp _ => by
    cases hp with
    | pending _ hr' => exact hr' hr
  refine ⟨d', _, hd, hc, ?_⟩
  generalize d'.inbound = i at hv
  cases hv with
  | refused _ hs' => rw [hs] at hs'; cases hs'
  | woken _ _ htx' =>
    rw [htx, hs] at htx'
    cases htx'
  | closed _ hp =>
    cases hp with
    | pending _ hr' => exact absurd hr hr'
  | ready _ hp =>
    cases hp with
    | message _ _ hq => exact .inl ⟨_, hq, rfl⟩
    | failed _ _ he =>
      obtain he | ⟨-, hq, he⟩ := he
      · cases hw.symm.trans he
      · rw [if_pos ho] at he
        exact .inr ⟨hq, congrArg Except.error he⟩

/-- The verdict on an undisturbed call after the overflow. -/
theorem Verdict.reported {b : List InboundMessage} {outcome : Except WebrtcError InboundMessage}
    {i : Inbound} (hv : d.Verdict k outcome i) (hi : d.inbound.Inv) (htx : d.TxUntilClaimed)
    (hC : d.Undisturbed (.poll k)) (ho : d.inbound.budget.overflowed = true)
    (hs : d.streamReceiving = false) (hb : d.inbound.backlog = some b) :
    (∃ m ∈ b, outcome = .ok m) ∨ outcome = .error .receiveBufferOverflow ∧ i.queue = [] := by
  cases hv with
  | refused _ hs' => rw [hs] at hs'; cases hs'
  | woken _ _ htx' =>
    rw [htx, hs] at htx'
    cases htx'
  | closed hk hp _ hc =>
    cases hp with
    | pending _ hr => exact absurd ((hC ho hs hk.live).2 hc) hr
  | ready hk hp =>
    cases hp with
    | @message _ m _ _ hq =>
      refine .inl ⟨m, ?_, rfl⟩
      have hacc := hi.latched
      rw [hb, if_pos ho, Option.some.injEq] at hacc
      rw [hacc, ← hi.fifo, hq]
      simp
    | failed hsame _ he =>
      obtain he | ⟨-, hq, he⟩ := he
      · exact absurd he ((hC ho hs hk.live).1 _)
      · rw [if_pos ho] at he
        exact .inr ⟨by rw [he], hsame.queue.trans hq⟩

/-- What returns in a step reports the overflow when the polled call is undisturbed. -/
theorem ReportInv.returned (hi : d.ReportInv) (hC : d.Undisturbed a) (he : d.Effect a d')
    {c : Completion} (hc : .done c ∈ d'.calls) (ho : c.overflowed = true)
    (hcl : c.claimed = false) :
    ∃ b, d'.inbound.backlog = some b ∧ ((∃ m ∈ b, c.outcome = .ok m) ∨
      c.outcome = .error .receiveBufferOverflow ∧ d'.inbound.queue = []) := by
  obtain hc | ⟨k, outcome, i, rfl, hv, rfl, rfl⟩ := he.done hc
  · obtain ⟨b, hb, hrep⟩ := hi.reported.returned c hc ho hcl
    obtain ⟨hb', hq⟩ := he.latched hi.inbound hb
    exact ⟨b, hb', hrep.imp id fun ⟨herr, hnil⟩ => ⟨herr, hq hnil⟩⟩
  · have hover : d.inbound.budget.overflowed = true := ho
    have hb : d.inbound.backlog = some d.inbound.accepted := by
      rw [hi.inbound.latched, if_pos hover]
    exact ⟨_, (he.latched hi.inbound hb).1, hv.reported hi.inbound hi.tx hC ho hcl hb⟩

/-- A step keeps the report when the polled call is undisturbed. -/
theorem ReportInv.step (hi : d.ReportInv) (hC : d.Undisturbed a) (h : d.step a = some d') :
    d'.ReportInv := by
  have he := step_effect h
  have hlock := he.lockHeld hi.claims.unclaimed hi.lock
  refine ⟨he.inv hi.inbound, he.tx hi.tx, he.claims hi.tx hi.claims, hlock,
    fun c hc ho hcl => hi.returned hC he hc ho hcl,
    fun ho hs hw k call hk hlive hr => reports (he.tx hi.tx) ho hs hw hk hlive hr, ?_⟩
  intro hs h hh
  obtain ⟨-, hown⟩ := hlock h hh
  cases h with
  | call k => exact ⟨k, rfl, hown⟩
  | stream j => cases hown.symm.trans hs

/-- A call polled after the overflow with the wiring failed, or with the close signal fired and its
inbound future not ready, returns another error. -/
theorem ReportInv.not_reported (hi : d.ReportInv) (hC : ¬ d.Undisturbed a)
    (h : d.step a = some d') : ¬ d'.Reported := by
  intro hrep
  cases a with
  | poll k =>
    refine hC ?_
    intro ho hs hlive
    have he := step_effect h
    have hlt : k < d.calls.length := by
      obtain ⟨call, hk, -⟩ := hlive
      exact (List.getElem?_eq_some_iff.1 hk).1
    cases he with
    | transport _ ha => exact absurd rfl (ha k)
    | parked _ hp _ hc =>
      cases hp with
      | pending _ hr =>
        refine ⟨fun e hw => hr (by simp [Inbound.Ready, hw]), fun hc' => ?_⟩
        rw [hc] at hc'
        cases hc'
    | returned hv =>
      obtain ⟨b, -, hout⟩ := hrep.returned _ (List.mem_set hlt _) ho hs
      cases hv with
      | refused _ hs' => rw [hs] at hs'; cases hs'
      | woken _ _ htx =>
        rw [hi.tx, hs] at htx
        cases htx
      | closed =>
        obtain ⟨m, -, hm⟩ | ⟨hm, -⟩ := hout <;> cases hm
      | ready _ hp =>
        cases hp with
        | message hr hk =>
          refine ⟨fun e hw => ?_, fun _ => hr⟩
          cases hk.symm.trans hw
        | failed _ hr he =>
          obtain he | ⟨hw, -, -⟩ := he
          · obtain ⟨m, -, hm⟩ | ⟨hm, -⟩ := hout
            · cases hm
            · cases hm
              exact absurd rfl (hi.inbound.wiredError _ he).2
          · refine ⟨fun e hw' => ?_, fun _ => hr⟩
            cases hw.symm.trans hw'
  | _ => exact hC trivial

end DataChannel

/-- **When an overflow is reported.** Along every run of a channel, every `receive` that returns
after the overflow on the unclaimed channel returns a message that had arrived before it or, with
the queue drained, `ReceiveBufferOverflow`, exactly when no call is polled after the overflow on the
unclaimed channel with the wiring failed, or with the close signal fired and its inbound future not
ready. -/
theorem overflow_reported_iff (limit : Nat) {as : List DataChannelAct} {d : DataChannel}
    (h : Runs.run DataChannel.step (.deferred limit) as = some d) :
    Runs.Along DataChannel.step DataChannel.Reported (.deferred limit) as ↔
      Runs.Meets DataChannel.step DataChannel.Undisturbed (.deferred limit) as :=
  Runs.along_iff_meets (I := DataChannel.ReportInv) (fun _ hi => hi.reported)
    (fun _ _ _ hi hC hs => hi.step hC hs) (fun _ _ _ hi hC hs => hi.not_reported hC hs)
    (DataChannel.reportInv_deferred limit) h

/-- The pump sees the channel's close before the connection closes: the overflow is reported. -/
theorem overflow_reported_iff_of_ended :
    Runs.Along DataChannel.step DataChannel.Reported (.deferred 2)
      [.create, .event (some .onOpen), .wire, .event (some (.onMessage ⟨false, [1, 2, 3]⟩)),
        .closed, .event (some .onClose), .fire, .receive, .poll 0] := by
  refine (overflow_reported_iff 2 rfl).2 ?_
  iterate 8 refine (Runs.meets_cons rfl).2 ⟨trivial, ?_⟩
  refine (Runs.meets_cons rfl).2 ⟨fun _ _ _ => ⟨nofun, fun _ => ⟨.inl rfl, .inr rfl⟩⟩, ?_⟩
  trivial

/-- The connection closes while the pump still awaits the close of the overflowed channel: the
`receive` returns `Closed`. -/
theorem overflow_not_reported :
    ∃ d, Runs.run DataChannel.step (.deferred 2)
        [.create, .event (some .onOpen), .wire, .event (some (.onMessage ⟨false, [1, 2, 3]⟩)),
          .fire, .receive, .poll 0] = some d ∧
      d.calls = [.done { outcome := .error .closed, claimed := false, overflowed := true }] ∧
      ¬ d.Reported := by
  refine ⟨_, rfl, rfl, ?_⟩
  intro hrep
  obtain ⟨b, -, hout⟩ := hrep.returned _ (List.mem_singleton_self _) rfl rfl
  obtain ⟨m, -, hm⟩ | ⟨hm, -⟩ := hout <;> cases hm

end WebrtcDatachannels.Host
