import WebrtcDatachannels.Guest.Closed

/-!
# The once-only claim of `receive-via-stream`

`DataChannel::receive_via_stream` marks the channel's record and spawns a `pump_receive` feeder, so
a feeder stands for a call that returned `Ok`. `Conn.Exclusive` says what each such call was
promised: no further claim, no further message to a `receive`, and every message since the claim on
the one stream. The record exists only once the pump drained the channel's open. A claim before
that is granted without a mark, and exclusivity holds along a run exactly when no such claim is made
(`exclusive_iff`).
-/

namespace WebrtcDatachannels.Guest

/-! ## Polls of feeders and receives -/

section
variable {s : Shared} {t : Task} {k : TaskId} {now : Instant} {answer : Except String Unit}
  {p : Polled}

/-- A poll pops for a feeder, or for a `receive` on a channel without a claim. -/
theorem Task.poll_popped (h : t.poll s k now answer = some p) :
    p.popped = [] ∨
    (∃ id before delivered feed m, p.task = .pumpReceive id before delivered feed ∧
      p.popped = [(id, m)]) ∨
    (∃ id m c, s.channel? id = some c ∧ c.streamClaimed = false ∧ p.popped = [(id, m)]) := by
  unfold Task.poll at h
  split at h
  · split at h <;> cases h
    exact .inl rfl
  · split at h <;> cases h
    exact .inl rfl
  · next hd seen =>
    split at h <;> cases h
    rcases receive_cases s hd.id with ⟨v, hv, hne⟩ | ⟨c, m, hc, hs, hp, hr⟩
    · refine .inl ?_
      have hs : v.succeeded = false := by
        rcases v with (e | m) | seen
        · rfl
        · exact absurd rfl (hne m)
        · rfl
      simp [hv, hs]
    · exact .inr (.inr ⟨hd.id, m, c, hc, hs, by
        simp [hr, hp, Verdict.succeeded, Shared.popEntry]⟩)
  · split at h
    · simp only at h
      split at h <;> cases h
      · exact .inr (.inl ⟨_, _, _, _, _, rfl, rfl⟩)
      · exact .inl rfl
      · exact .inl rfl
    · cases h
  · split at h
    · simp only at h
      split at h
      · cases h; exact .inl rfl
      · split at h <;> cases h <;> exact .inl rfl
    · cases h
  · split at h <;> cases h
    exact .inl rfl
  · cases h

/-- What a pull leaves of its feeder. -/
theorem Task.poll_feeder (h : t.poll s k now answer = some p) {id : RTCDataChannelId}
    {before delivered : List InboundMessage} {feed : Feed InboundMessage}
    (hp : p.task = .pumpReceive id before delivered feed) :
    ∃ seen, t = .pumpReceive id before delivered (.looping seen) ∧
      p.popped = feed.inHand.map (id, ·) ∧
      (feed = .done → (pullNext s id).1 = .done ∧ p.shared = s) := by
  unfold Task.poll at h
  split at h
  · split at h <;> cases h
    cases hp
  · split at h <;> cases h
    cases hp
  · split at h <;> cases h
    cases hp
  · next id' before' delivered' seen =>
    split at h
    · simp only at h
      split at h <;> cases h <;> cases hp
      · exact ⟨seen, rfl, rfl, nofun⟩
      · exact ⟨seen, rfl, rfl, nofun⟩
      · next hd =>
        refine ⟨seen, rfl, rfl, fun _ => ⟨hd, ?_⟩⟩
        rcases pullNext_cases s id with ⟨v, hv, -⟩ | ⟨c, m, -, -, hr⟩
        · rw [hv]
        · rw [hr] at hd; cases hd
    · cases h
  · split at h
    · simp only at h
      split at h
      · cases h; cases hp
      · split at h <;> cases h <;> cases hp
    · cases h
  · split at h <;> cases h
    cases hp
  · cases h

/-- What a stream operation leaves of a feeder. -/
theorem Task.advance_feeder {t t' : Task} {io : Io} (h : t.advance io = some t')
    {id : RTCDataChannelId} {before delivered : List InboundMessage} {feed : Feed InboundMessage}
    (ht : t' = .pumpReceive id before delivered feed) :
    ∃ delivered' feed', t = .pumpReceive id before delivered' feed' ∧
      delivered ++ feed.inHand = delivered' ++ feed'.inHand ∧ feed ≠ .done := by
  subst ht
  unfold Task.advance at h
  split at h
  · cases h
  · cases h
  · split at h
    · split at h <;> cases h
    · cases h
  · cases h; exact ⟨_, _, rfl, by simp [Feed.inHand], nofun⟩
  · cases h; exact ⟨_, _, rfl, rfl, nofun⟩
  · cases h; exact ⟨_, _, rfl, rfl, nofun⟩
  all_goals cases h

/-- A pull that ends a feeder found its channel closed and empty. -/
theorem pullNext_done {id : RTCDataChannelId} {c : Channel} (hc : s.channel? id = some c)
    (h : (pullNext s id).1 = .done) : c.inbox = [] ∧ c.closed = true := by
  unfold pullNext at h
  cases hi : c.inbox with
  | cons m rest => simp [hc, Shared.popChannel, Channel.pop, hi] at h
  | nil =>
    cases hcl : c.closed with
    | true => exact ⟨rfl, rfl⟩
    | false => simp [hc, hcl, Shared.popChannel, Channel.pop, hi] at h

end

/-! ## What a claim promises -/

/-- A feeder of the channel `id`, as the task `k`. -/
def Conn.Feeder (c : Conn) (k : TaskId) (id : RTCDataChannelId) : Prop :=
  ∃ before delivered feed, c.tasks[k]? = some (.pumpReceive id before delivered feed)

/-- What the claim behind a feeder was promised. `before` are the messages popped before the
claim and `delivered` those the stream delivered. A further claim and every `receive` are refused
and change nothing; a waiting `receive` has been woken; the messages popped and applied since the
claim are on the stream, in its feeder's hand or in the inbox, in this order; and the feeder ends,
or waits, only with an empty inbox. -/
structure Conn.Promised (c : Conn) (id : RTCDataChannelId)
    (before delivered : List InboundMessage) (feed : Feed InboundMessage) : Prop where
  claim : Guest.receiveViaStream c.shared id = (.error .receivingViaStream, c.shared)
  receive : Guest.receive c.shared id = (.ret (.error .receivingViaStream), c.shared)
  pending : ∀ h seen, h.id = id → .receive h (.pending seen) ∈ c.tasks →
    c.shared.watch.ready seen = true
  popped : ofChannel id c.ledger.popped = before ++ delivered ++ feed.inHand
  inbox : ∃ ch, c.shared.channel? id = some ch ∧
    ofChannel id c.ledger.applied = before ++ delivered ++ feed.inHand ++ ch.inbox ∧
    (feed = .done → ch.inbox = [] ∧ ch.closed = true) ∧
    (feed = .looping (some c.shared.watch.version) → ch.inbox = [] ∧ ch.closed = false)

/-- Every claim that was granted is exclusive: its feeder is the only one of its channel, and what
it was promised holds. -/
def Conn.Exclusive (c : Conn) : Prop :=
  ∀ (k : TaskId) id before delivered feed,
    c.tasks[k]? = some (.pumpReceive id before delivered feed) →
    (∀ k', c.Feeder k' id → k' = k) ∧ c.Promised id before delivered feed

/-- No claim on a channel that is not tracked while the connection is alive. -/
def ClaimTracked (c : Conn) : Act → Prop
  | .receiveViaStream h => (c.shared.channel? h.id).isSome = true ∨ c.shared.dead = true
  | _ => True

/-! ## The invariant -/

namespace Conn

variable {limit : Nat} {c c' : Conn} {a : Act} {id : RTCDataChannelId}
  {before delivered : List InboundMessage} {feed : Feed InboundMessage}

/-- A feeder's channel is marked, and what was popped from it went to the stream. -/
structure Held (c : Conn) (id : RTCDataChannelId) (before delivered : List InboundMessage)
    (feed : Feed InboundMessage) : Prop where
  marked : ∃ ch, c.shared.channel? id = some ch ∧ ch.streamClaimed = true ∧
    (feed = .done → ch.inbox = [] ∧ ch.closed = true)
  popped : ofChannel id c.ledger.popped = before ++ delivered ++ feed.inHand

/-- The feeders of a channel: one at most, and then the channel is marked. -/
structure Feeders (c : Conn) (id : RTCDataChannelId) : Prop where
  held : ∀ (k : TaskId) before delivered feed,
    c.tasks[k]? = some (.pumpReceive id before delivered feed) → c.Held id before delivered feed
  unique : ∀ k k', c.Feeder k id → c.Feeder k' id → k' = k

theorem feeders_nil (h : c.tasks = []) (id : RTCDataChannelId) : c.Feeders id := by
  refine ⟨?_, ?_⟩
  · intro k _ _ _ hk
    rw [h] at hk; cases hk
  · intro k _ hk
    obtain ⟨_, _, _, hk⟩ := hk
    rw [h] at hk; cases hk

/-- The step claims the channel only if it is tracked or the connection is over. -/
def ClaimsTracked (c : Conn) (id : RTCDataChannelId) (a : Act) : Prop :=
  ∀ hd, a = .receiveViaStream hd → hd.id = id →
    (c.shared.channel? id).isSome = true ∨ c.shared.dead = true

/-- A feeder that a step does not touch stays in order when nothing else pops from its channel. -/
theorem Held.keep (h : c.Held id before delivered feed) (hk : FlagsKept c.shared c'.shared)
    (hp : ofChannel id c'.ledger.popped = ofChannel id c.ledger.popped) :
    c'.Held id before delivered feed := by
  obtain ⟨ch, hch, hs, hdone⟩ := h.marked
  obtain ⟨ch', hch', hkept⟩ := hk.channel id ch hch
  refine ⟨⟨ch', hch', hkept.streamClaimed hs, ?_⟩, hp.trans h.popped⟩
  intro hd
  obtain ⟨hi, hcl⟩ := hdone hd
  have hsuf := hkept.inbox hcl
  rw [hi, List.suffix_nil] at hsuf
  exact ⟨hsuf, hkept.closed hcl⟩

/-- After a step the tasks that are feeders were feeders of the same channels before it, except for
the one a granted claim spawns. -/
theorem feeder_step (h : c.step limit a = some c') {k : TaskId} (hf : c'.Feeder k id) :
    c.Feeder k id ∨ (k = c.tasks.length ∧ ∃ hd, a = .receiveViaStream hd ∧ hd.id = id ∧
      (Guest.receiveViaStream c.shared id).1 = .ok () ∧
      c'.shared = (Guest.receiveViaStream c.shared id).2) := by
  obtain ⟨before, delivered, feed, hk⟩ := hf
  cases step_task h hk with
  | kept hk | other _ _ _ _ _ hk => exact .inl ⟨_, _, _, hk⟩
  | spawned hlen ht =>
    obtain ⟨-, -, -, hd, ha, hid, hok, hs⟩ := ht
    exact .inr ⟨hlen, hd, ha, hid, hok, hs⟩
  | polled t now answer p hk hp ht =>
    obtain ⟨seen, rfl, -⟩ := Task.poll_feeder hp ht
    exact .inl ⟨_, _, _, hk⟩
  | advanced t io hk hadv =>
    obtain ⟨d', f', rfl, -⟩ := Task.advance_feeder hadv rfl
    exact .inl ⟨_, _, _, hk⟩

/-- A claim granted while it is tracked marks a channel that has no feeder. -/
theorem Feeders.claim {hd : DataChannel} (hf : c.Feeders hd.id)
    (hC : (c.shared.channel? hd.id).isSome = true ∨ c.shared.dead = true)
    (hok : (Guest.receiveViaStream c.shared hd.id).1 = .ok ()) :
    (∀ k, ¬ c.Feeder k hd.id) ∧ ∃ ch,
      (Guest.receiveViaStream c.shared hd.id).2.channel? hd.id = some ch ∧
      ch.streamClaimed = true := by
  rcases receiveViaStream_cases c.shared hd.id with
    ⟨e, hr⟩ | ⟨ch, hc, hs, -, hr⟩ | ⟨hn, hdead, -⟩
  · rw [hr] at hok; cases hok
  · refine ⟨?_, ch.claim, ?_, rfl⟩
    · rintro k ⟨b, d, f, hk⟩
      obtain ⟨ch', hch', hs', -⟩ := (hf.held k b d f hk).marked
      rw [hc] at hch'
      cases hch'
      rw [hs] at hs'
      cases hs'
    · rw [hr]
      have h := c.shared.channel?_modifyChannel_self hd.id Channel.claim_id
      rw [hc] at h
      exact h
  · rcases hC with h | h
    · rw [hn] at h; cases h
    · rw [hdead] at h; cases h

section
variable {t : Task} {k k' : TaskId} {now : Instant} {answer : Except String Unit} {p : Polled}

/-- What a task pops when it is polled comes from no other feeder's channel: a feeder is the only
one of its channel, and a `receive` is refused by the mark. -/
theorem Feeders.pops_none (hf : c.Feeders id) (hk : c.tasks[k]? = some t)
    (hp : t.poll c.shared k now answer = some p) (hne : k' ≠ k) (hk' : c.Feeder k' id) :
    ofChannel id (c.ledger.popped ++ p.popped) = ofChannel id c.ledger.popped := by
  rw [ofChannel_append]
  rcases Task.poll_popped hp with h0 | ⟨id', b', d', f', m, hpt, h1⟩ | ⟨id', m, ch, hch, hcl, h1⟩
  · simp [h0]
  · obtain ⟨seen, rfl, -⟩ := Task.poll_feeder hp hpt
    have hne' : id' ≠ id := by
      rintro rfl
      exact hne (hf.unique k k' ⟨_, _, _, hk⟩ hk')
    rw [h1, ofChannel_ne hne', List.append_nil]
  · have hne' : id' ≠ id := by
      rintro rfl
      obtain ⟨b, d, f, hk'⟩ := hk'
      obtain ⟨ch', hch', hs', -⟩ := (hf.held k' _ _ _ hk').marked
      rw [hch] at hch'
      cases hch'
      rw [hcl] at hs'
      cases hs'
    rw [h1, ofChannel_ne hne', List.append_nil]

/-- A feeder that is polled stays in order: what it popped is in its hand, and it is done only with
its channel closed and drained. -/
theorem Held.poll (hp : t.poll c.shared k now answer = some p)
    (ht : p.task = .pumpReceive id before delivered feed)
    (hheld : ∀ seen, t = .pumpReceive id before delivered (.looping seen) →
      c.Held id before delivered (.looping seen))
    (hkept : FlagsKept c.shared c'.shared)
    (hl : c'.ledger = { c.ledger with shared := p.shared, popped := c.ledger.popped ++ p.popped }) :
    c'.Held id before delivered feed := by
  obtain ⟨seen, rfl, hpp, hdone⟩ := Task.poll_feeder hp ht
  have hheld := hheld seen rfl
  obtain ⟨ch, hch, hs, -⟩ := hheld.marked
  obtain ⟨ch', hch', hkc⟩ := hkept.channel id ch hch
  refine ⟨⟨ch', hch', hkc.streamClaimed hs, ?_⟩, ?_⟩
  · intro hfd
    obtain ⟨hpd, hps⟩ := hdone hfd
    obtain ⟨hi, hcl⟩ := pullNext_done hch hpd
    have hsame : c'.shared.channel? id = some ch := by rw [shared, hl, hps]; exact hch
    rw [hsame] at hch'
    cases hch'
    exact ⟨hi, hcl⟩
  · have hself : ofChannel id (feed.inHand.map (id, ·)) = feed.inHand := by
      cases feed with
      | writing m | dropped m => exact ofChannel_self id m
      | looping | payload | done => rfl
    rw [hl, ofChannel_append, hheld.popped, hpp, hself]
    simp [Feed.inHand]

/-- A feeder whose stream operation completes stays in order. -/
theorem Held.advance {t' : Task} {io : Io} (hadv : t.advance io = some t')
    (ht : t' = .pumpReceive id before delivered feed)
    (hheld : ∀ d f, t = .pumpReceive id before d f → c.Held id before d f)
    (hl : c'.ledger = c.ledger) : c'.Held id before delivered feed := by
  obtain ⟨d, f, rfl, hsum, hnd⟩ := Task.advance_feeder hadv ht
  have hheld := hheld d f rfl
  obtain ⟨ch, hch, hs, -⟩ := hheld.marked
  refine ⟨⟨ch, by rw [shared, hl]; exact hch, hs, fun hd => absurd hd hnd⟩, ?_⟩
  rw [hl, hheld.popped, List.append_assoc, List.append_assoc, hsum]

end

/-- A step keeps each feeder in order when it makes no claim on an untracked channel. -/
theorem Feeders.held_step (hf : c.Feeders id) (hC : c.ClaimsTracked id a)
    (h : c.step limit a = some c')
    {k : TaskId} (hk : c'.tasks[k]? = some (.pumpReceive id before delivered feed)) :
    c'.Held id before delivered feed := by
  have hkept := (step_effect h).flagsKept
  cases step_task h hk with
  | kept hk hp => exact (hf.held k _ _ _ hk).keep hkept (by rw [hp])
  | other k₀ t now answer p hk hne hk₀ hp hpop =>
    refine (hf.held k _ _ _ hk).keep hkept ?_
    rw [hpop]
    exact hf.pops_none hk₀ hp hne ⟨_, _, _, hk⟩
  | spawned _ ht hp =>
    obtain ⟨rfl, rfl, rfl, hd, rfl, rfl, hok, hs⟩ := ht
    obtain ⟨-, ch, hch, hcl⟩ := hf.claim (hC hd rfl rfl) hok
    exact ⟨⟨ch, hs ▸ hch, hcl, nofun⟩, by simp [hp, Feed.inHand]⟩
  | polled t now answer p hk hp ht hl =>
    refine Held.poll hp ht ?_ hkept hl
    rintro seen rfl
    exact hf.held k _ _ _ hk
  | advanced t io hk hadv hl =>
    refine Held.advance hadv rfl ?_ hl
    rintro d f rfl
    exact hf.held k _ _ _ hk

/-- A step keeps the feeders in order when it makes no claim on an untracked channel. -/
theorem Feeders.step (hf : c.Feeders id) (hC : c.ClaimsTracked id a)
    (h : c.step limit a = some c') : c'.Feeders id := by
  refine ⟨fun k _ _ _ hk => hf.held_step hC h hk, ?_⟩
  intro k k' hk hk'
  rcases feeder_step h hk with hk | ⟨rfl, hd, rfl, rfl, hok, -⟩ <;>
    rcases feeder_step h hk' with hk' | ⟨rfl, hd', ha, hid, hok', -⟩
  · exact hf.unique k k' hk hk'
  · subst ha
    subst hid
    exact absurd hk ((hf.claim (hC hd' rfl rfl) hok').1 k)
  · exact absurd hk' ((hf.claim (hC hd rfl rfl) hok).1 k')
  · rfl

/-- What carries exclusivity over a run: no missed notification, the ledger's accounting, and the
feeders in order. -/
structure ClaimInv (limit : Nat) (c : Conn) : Prop where
  awaits : c.Awaits
  ledger : c.ledger.Inv limit
  feeders : ∀ id, c.Feeders id

theorem Start.claimInv (h : c.Start) : c.ClaimInv limit := by
  refine ⟨h.awaits, h.inv, feeders_nil ?_⟩
  rcases h with rfl | rfl <;> rfl

theorem ClaimInv.step (hi : c.ClaimInv limit) (hC : ClaimTracked c a)
    (h : c.step limit a = some c') : c'.ClaimInv limit := by
  obtain ⟨bs, hbs⟩ := (step_effect h).run
  refine ⟨hi.awaits.step h, hi.ledger.run hbs, fun id => (hi.feeders id).step ?_ h⟩
  rintro hd rfl rfl
  exact hC

/-- The invariant gives every granted claim what it was promised. -/
theorem ClaimInv.exclusive (hi : c.ClaimInv limit) : c.Exclusive := by
  intro k id before delivered feed hk
  have hheld := (hi.feeders id).held k before delivered feed hk
  obtain ⟨ch, hch, hs, hdone⟩ := hheld.marked
  refine ⟨fun k' hk' => (hi.feeders id).unique k k' ⟨_, _, _, hk⟩ hk', ?_⟩
  refine ⟨receiveViaStream_claimed hch hs, receive_claimed hch hs, ?_,
    hheld.popped, ch, hch, ?_, hdone, ?_⟩
  · intro h seen hid hm
    -- a `receive` that awaits the current version would see the mark
    cases hseen : seen with
    | none => rfl
    | some v =>
      subst hseen
      by_cases hv : v = c.shared.watch.version
      · have hw := ((hi.awaits _ hm) v rfl).2 hv
        rw [← hid] at hch
        rw [(hw.1 ch hch).1] at hs
        cases hs
      · simpa [StateWatch.ready] using hv
  · obtain ⟨q, hq⟩ := (hi.ledger.entry id).1 ch hch
    rw [← hheld.popped, hq.applied, hq.taken, hq.held, BoundedLog.Log.accepted]
  · intro hfeed
    subst hfeed
    have hw := ((hi.awaits _ (List.mem_of_getElem? hk)) _ rfl).2 rfl
    exact hw.1 ch hch

/-- A claim on an untracked channel of a live connection is not exclusive. -/
theorem not_exclusive_of_untracked (hC : ¬ ClaimTracked c a) (h : c.step limit a = some c') :
    ¬ c'.Exclusive := by
  intro hex
  cases a with
  | receiveViaStream hd =>
    simp only [ClaimTracked, not_or, Bool.not_eq_true] at hC
    obtain ⟨hn, hdead⟩ := hC
    rw [Option.isSome_eq_false_iff, Option.isNone_iff_eq_none] at hn
    have hlive : (c.shared.closed || c.shared.failed) = false := hdead
    have hgrant : Guest.receiveViaStream c.shared hd.id = (.ok (), c.shared) := by
      simp [Guest.receiveViaStream, channelState, hn, hlive]
    simp only [Conn.step] at h
    split at h
    · cases h
      have hk : (c.receiveViaStream hd).tasks[c.tasks.length]? =
          some (.pumpReceive hd.id (ofChannel hd.id c.ledger.popped) [] (.looping none)) := by
        simp [receiveViaStream, hgrant]
      have hclaim := ((hex _ _ _ _ _ hk).2).claim
      simp only [receiveViaStream, hgrant, spawn_ledger, setShared, shared] at hclaim
      cases hclaim
    · cases h
  | _ => exact hC trivial

end Conn

/-- **When the claim is exclusive.** Along every run of a connection, every granted claim stays
exclusive in every state exactly when no `receive_via_stream` call is made on a channel that is not
tracked while the connection is alive. -/
theorem exclusive_iff (limit : Nat) {c₀ c : Conn} {as : List Act} (h₀ : c₀.Start)
    (h : Runs.run (Conn.step limit) c₀ as = some c) :
    Runs.Along (Conn.step limit) Conn.Exclusive c₀ as ↔
      Runs.Meets (Conn.step limit) ClaimTracked c₀ as :=
  Runs.along_iff_meets (I := Conn.ClaimInv limit) (fun _ hi => hi.exclusive)
    (fun _ _ _ hi hC hs => hi.step hC hs)
    (fun _ _ _ _ hC hs => Conn.not_exclusive_of_untracked hC hs) h₀.claimInv h

/-- A claim on a tracked channel: the message that arrives after it goes to the stream. -/
theorem exclusive_iff_of_tracked :
    Runs.Along (Conn.step 8) Conn.Exclusive .bound
      [.createDataChannel "a" (.ok 0), .core [.onDataChannel (.onOpen 0)] [] [], .turn 0,
        .receiveViaStream ⟨.pump, 0, "a"⟩, .core [] [.dataChannelMessage 0 true [104, 105]] [],
        .turn 1, .poll 0 1 (.ok ()), .io 0 .accepted] := by
  refine (exclusive_iff 8 (.inl rfl) rfl).2 ?_
  iterate 8 refine (Runs.meets_cons rfl).2 ⟨by first | trivial | exact .inl rfl, ?_⟩
  trivial

/-- A claim made while the channel is still opening is not exclusive: a second claim is granted, and
after the open a `receive` takes the message. -/
theorem untracked_claim_shared :
    ∃ c c', Runs.run (Conn.step 8) .bound
        [.createDataChannel "a" (.ok 0), .receiveViaStream ⟨.pump, 0, "a"⟩] = some c ∧
      (receiveViaStream c.shared 0).1 = .ok () ∧ ¬ c.Exclusive ∧
      Runs.run (Conn.step 8) c
        [.core [.onDataChannel (.onOpen 0)] [.dataChannelMessage 0 true [104, 105]] [], .turn 0] =
          some c' ∧
      (receive c'.shared 0).1 = .ret (.ok (.string "hi")) ∧ ¬ c'.Exclusive := by
  refine ⟨_, _, rfl, rfl, fun hex => ?_, rfl, by decide, fun hex => ?_⟩
  · have := ((hex 0 0 [] [] (.looping none) rfl).2).claim
    cases this
  · have := ((hex 0 0 [] [] (.looping none) rfl).2).receive
    cases this

end WebrtcDatachannels.Guest
