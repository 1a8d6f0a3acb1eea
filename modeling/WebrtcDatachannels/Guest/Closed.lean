import WebrtcDatachannels.Guest.Wake

/-!
# A dead connection is terminally closed

Once `closed` or `failed` is set every tracked channel is closed, whichever of the five places set
it, and stays so: an open drained later is tracked closed (`Effect.terminal`), and no flag is ever
cleared (`Effect.flagsKept`). On such a state `when_open` returns `closed` for every id, so the
messages handed to the core are those from before the end (`Conn.Ended`), and every send and every
element of a stream is refused with `closed` (`Conn.Refuses`, `closed_terminally`).
-/

namespace WebrtcDatachannels.Guest

/-- Every channel of a dead connection is closed. -/
def Terminal (s : Shared) : Prop := s.dead = true → ∀ c ∈ s.channels, c.closed = true

/-- From `c` to `c'` no flag is cleared, and nothing is appended to a closed channel's inbox. -/
structure Channel.Kept (c c' : Channel) : Prop where
  closed : c.closed = true → c'.closed = true
  overflowed : c.overflowed = true → c'.overflowed = true
  streamClaimed : c.streamClaimed = true → c'.streamClaimed = true
  inbox : c.closed = true → c'.inbox <:+ c.inbox

/-- From `s` to `s'` no flag is cleared and no channel is forgotten. -/
structure FlagsKept (s s' : Shared) : Prop where
  closed : s.closed = true → s'.closed = true
  failed : s.failed = true → s'.failed = true
  channel : ∀ id c, s.channel? id = some c → ∃ c', s'.channel? id = some c' ∧ c.Kept c'

section
variable {s s' s'' : Shared} {limit : Nat}

theorem Channel.Kept.refl (c : Channel) : c.Kept c :=
  ⟨fun h => h, fun h => h, fun h => h, fun _ => List.suffix_rfl⟩

theorem Channel.Kept.trans {c c' c'' : Channel} (h : c.Kept c') (h' : c'.Kept c'') : c.Kept c'' :=
  ⟨fun hc => h'.closed (h.closed hc), fun ho => h'.overflowed (h.overflowed ho),
    fun hs => h'.streamClaimed (h.streamClaimed hs),
    fun hc => (h'.inbox (h.closed hc)).trans (h.inbox hc)⟩

theorem Channel.Kept.close (c : Channel) : c.Kept c.close :=
  ⟨fun _ => rfl, fun h => h, fun h => h, fun _ => List.suffix_rfl⟩

theorem Channel.Kept.overflow (c : Channel) : c.Kept c.overflow :=
  ⟨fun _ => rfl, fun _ => rfl, fun h => h, fun _ => List.suffix_rfl⟩

theorem Channel.Kept.claim (c : Channel) : c.Kept c.claim :=
  ⟨fun h => h, fun h => h, fun _ => rfl, fun _ => List.suffix_rfl⟩

theorem Channel.Kept.push {c : Channel} (h : c.closed = false) (m : InboundMessage) :
    c.Kept (c.push m) :=
  ⟨fun h => h, fun h => h, fun h => h, fun hc => by rw [h] at hc; cases hc⟩

theorem Channel.Kept.pop (c : Channel) : c.Kept c.pop.2 := by
  unfold Channel.pop
  split
  · exact .refl c
  · next m rest hi => exact ⟨fun h => h, fun h => h, fun h => h, fun _ => ⟨[m], hi.symm⟩⟩

theorem FlagsKept.refl (s : Shared) : FlagsKept s s :=
  ⟨id, id, fun _ c hc => ⟨c, hc, .refl c⟩⟩

theorem FlagsKept.trans (h : FlagsKept s s') (h' : FlagsKept s' s'') : FlagsKept s s'' := by
  refine ⟨fun hc => h'.closed (h.closed hc), fun hf => h'.failed (h.failed hf), ?_⟩
  intro id c hc
  obtain ⟨c', hc', hk⟩ := h.channel id c hc
  obtain ⟨c'', hc'', hk'⟩ := h'.channel id c' hc'
  exact ⟨c'', hc'', hk.trans hk'⟩

theorem FlagsKept.dead (h : FlagsKept s s') (hd : s.dead = true) : s'.dead = true := by
  rw [Shared.dead, Bool.or_eq_true] at hd ⊢
  exact hd.imp h.closed h.failed

/-- A state with the same channels and flags. -/
theorem FlagsKept.of_eq (h : s'.channels = s.channels) (hc : s'.closed = s.closed)
    (hf : s'.failed = s.failed) : FlagsKept s s' := by
  refine ⟨fun h' => hc ▸ h', fun h' => hf ▸ h', fun id c h' => ⟨c, ?_, .refl c⟩⟩
  rwa [Shared.channel?, h]

/-- An update of one channel that keeps its flags. -/
theorem FlagsKept.modifyChannel (s : Shared) (id : RTCDataChannelId) {f : Channel → Channel}
    (hf : ∀ c, (f c).id = c.id) (hk : ∀ c, s.channel? id = some c → c.Kept (f c)) :
    FlagsKept s (s.modifyChannel id f) := by
  refine ⟨fun h => h, fun h => h, ?_⟩
  intro id' c hc
  by_cases hid : id' = id
  · subst hid
    refine ⟨f c, ?_, hk c hc⟩
    rw [Shared.channel?_modifyChannel_self _ _ hf, hc]
    rfl
  · exact ⟨c, (s.channel?_modifyChannel_ne hf hid).trans hc, .refl c⟩

/-- Closing every channel and setting flags of the connection. -/
theorem FlagsKept.of_close (h : s'.channels = s.channels.map Channel.close)
    (hc : s.closed = true → s'.closed = true) (hf : s.failed = true → s'.failed = true) :
    FlagsKept s s' := by
  refine ⟨hc, hf, fun id c hch => ⟨c.close, ?_, .close c⟩⟩
  have hs := s.channel?_closeChannels id
  rw [hch] at hs
  rw [Shared.channel?, h]
  exact hs

/-- A connection whose channels were just closed. -/
theorem terminal_of_map (h : s'.channels = s.channels.map Channel.close) : Terminal s' := by
  intro _ c hc
  rw [h] at hc
  obtain ⟨c', -, rfl⟩ := List.mem_map.1 hc
  rfl

/-- An update of one channel that does not reopen it. -/
theorem Terminal.modifyChannel (h : Terminal s) (id : RTCDataChannelId) {f : Channel → Channel}
    (hcl : ∀ c, c.closed = true → (f c).closed = true) : Terminal (s.modifyChannel id f) := by
  intro hd c hc
  rcases Keyed.mem_modify hc with hc | ⟨c', hc', -, rfl⟩
  · exact h hd c hc
  · exact hcl c' (h hd c' hc')

theorem Terminal.of_eq (ht : Terminal s) (h : s'.channels = s.channels)
    (hc : s'.closed = s.closed) (hf : s'.failed = s.failed) : Terminal s' := by
  intro hd c hm
  rw [Shared.dead, hc, hf] at hd
  rw [h] at hm
  exact ht hd c hm

/-- On a dead connection every channel's state is `closed`, tracked or not. -/
theorem Terminal.channelState (h : Terminal s) (hd : s.dead = true) (id : RTCDataChannelId) :
    channelState s id = .closed := by
  unfold Guest.channelState
  cases hc : s.channel? id with
  | some c => simp [h hd c (Keyed.mem_of_find? hc).1]
  | none =>
    have hd' : (s.closed || s.failed) = true := hd
    simp [hd']

/-! ## Events -/

theorem applyEvent_flagsKept (limit : Nat) (s : Shared) (e : PeerEvent) :
    FlagsKept s (s.applyEvent limit e) := by
  cases e with
  | connected => exact .of_eq rfl rfl rfl
  | failed => exact .of_close rfl (fun h => h) fun _ => rfl
  | closed => exact .of_close rfl (fun _ => rfl) fun h => h
  | channelOpen id label =>
    simp only [Shared.applyEvent]
    split
    · exact .refl s
    · refine ⟨fun h => h, fun h => h, fun id' c hc => ⟨c, ?_, .refl c⟩⟩
      rw [Shared.channel?] at hc ⊢
      rw [Keyed.find?_concat, hc]
      rfl
  | channelClosed id => exact .modifyChannel s id Channel.close_id fun c _ => .close c
  | message id text data =>
    simp only [Shared.applyEvent]
    split
    · next c hc =>
      split
      · exact .refl s
      · next hlive =>
        split
        · exact (FlagsKept.modifyChannel s id Channel.overflow_id fun c _ => .overflow c).trans
            (.of_eq rfl rfl rfl)
        · refine .modifyChannel s id (Channel.push_id · ⟨text, data⟩) ?_
          intro c' hc'
          rw [hc] at hc'
          cases hc'
          rw [Bool.or_eq_true, not_or] at hlive
          exact .push (eq_false_of_ne_true hlive.2) _
    · exact .refl s

/-- Each event keeps the channels of a dead connection closed: the two that end it close them, and
an open after the end is tracked closed. -/
theorem Terminal.applyEvent (h : Terminal s) (e : PeerEvent) : Terminal (s.applyEvent limit e) := by
  cases e with
  | connected => exact h
  | failed | closed => exact terminal_of_map rfl
  | channelOpen id label =>
    simp only [Shared.applyEvent]
    split
    · exact h
    · intro hd c hc
      rcases List.mem_append.1 hc with hc | hc
      · exact h hd c hc
      · rw [List.mem_singleton] at hc
        rw [hc]
        exact hd
  | channelClosed id => exact h.modifyChannel id fun _ _ => rfl
  | message id text data =>
    simp only [Shared.applyEvent]
    split
    · split
      · exact h
      · split
        · exact h.modifyChannel id fun _ _ => rfl
        · exact h.modifyChannel id fun _ h => h
    · exact h

theorem applyEvents_flagsKept (limit : Nat) (s : Shared) (es : List PeerEvent) :
    FlagsKept s (s.applyEvents limit es) := by
  induction es generalizing s with
  | nil => exact .refl s
  | cons e es ih => exact (applyEvent_flagsKept limit s e).trans (ih _)

theorem Terminal.applyEvents (h : Terminal s) (limit : Nat) (es : List PeerEvent) :
    Terminal (s.applyEvents limit es) := by
  induction es generalizing s with
  | nil => exact h
  | cons e es ih => exact ih (h.applyEvent e)

/-- A drained Failed or Closed event ends the connection. -/
theorem applyEvents_dead (limit : Nat) (s : Shared) {es : List PeerEvent}
    (h : .failed ∈ es ∨ .closed ∈ es) :
    (s.applyEvents limit es).dead = true := by
  have hsplit : ∃ e pre post, es = pre ++ e :: post ∧ (e = .failed ∨ e = .closed) := by
    rcases h with h | h <;> obtain ⟨pre, post, rfl⟩ := List.append_of_mem h
    · exact ⟨_, pre, post, rfl, .inl rfl⟩
    · exact ⟨_, pre, post, rfl, .inr rfl⟩
  obtain ⟨e, pre, post, rfl, he⟩ := hsplit
  rw [Shared.applyEvents_append, Shared.applyEvents_cons]
  refine (applyEvents_flagsKept limit _ post).dead ?_
  rcases he with rfl | rfl <;> simp [Shared.applyEvent, Shared.dead]

/-- No event hands a message to the core. -/
theorem applyEvents_sends (limit : Nat) (s : Shared) (es : List PeerEvent) :
    (s.applyEvents limit es).peer.sends = s.peer.sends := by
  induction es generalizing s with
  | nil => rfl
  | cons e es ih =>
    rw [Shared.applyEvents_cons, ih]
    cases e with
    | connected | failed | closed | channelClosed => rfl
    | channelOpen id label => simp only [Shared.applyEvent]; split <;> rfl
    | message id text data =>
      simp only [Shared.applyEvent]
      split
      · split
        · rfl
        · split <;> rfl
      · rfl

end

/-! ## Steps -/

section
variable {limit : Nat} {pumps : Prop} {L L' : Ledger}

/-- The pump's block, with and without its notification. -/
theorem turn_eq (limit : Nat) (s : Shared) :
    s.turn limit = s.drain.applyEvents limit s.drained ∨
      s.turn limit = (s.drain.applyEvents limit s.drained).notify := by
  unfold Shared.turn
  split
  · exact .inl rfl
  · exact .inr rfl

/-- The pump's block hands no message to the core. -/
theorem turn_sends (limit : Nat) (s : Shared) : (s.turn limit).peer.sends = s.peer.sends := by
  have h := (applyEvents_sends limit s.drain s.drained).trans s.drain_frame.2.2.2.2.2
  rcases turn_eq limit s with he | he <;> rw [he] <;> exact h

theorem turn_flagsKept (s : Shared) : FlagsKept s (s.turn limit) := by
  obtain ⟨hch, -, hf, hcl, -⟩ := s.drain_frame
  have h := (FlagsKept.of_eq hch hcl hf).trans
    (applyEvents_flagsKept limit s.drain s.drained)
  rcases turn_eq limit s with he | he <;> rw [he]
  · exact h
  · exact h.trans (.of_eq rfl rfl rfl)

/-- No step clears a flag. -/
theorem Effect.flagsKept (h : Effect limit pumps L L') : FlagsKept L.shared L'.shared := by
  cases h with
  | watch | peer | sent => exact .of_eq rfl rfl rfl
  | popped id m c hc hm => exact .modifyChannel _ id Channel.pop_id fun c _ => .pop c
  | turn _ es hes => exact turn_flagsKept _
  | finish => exact .of_close rfl (fun _ => rfl) fun h => h
  | beginClose now =>
    simp only [Shared.beginClose]
    split
    · exact .refl _
    · exact .of_close rfl (fun _ => rfl) fun h => h
  | claim id c hc hs hcl =>
    exact (FlagsKept.modifyChannel L.shared id Channel.claim_id fun c _ => .claim c).trans
      (.of_eq rfl rfl rfl)

/-- Every step keeps the channels of a dead connection closed. -/
theorem Effect.terminal (h : Effect limit pumps L L') (ht : Terminal L.shared) :
    Terminal L'.shared := by
  cases h with
  | watch | peer | sent => exact ht.of_eq rfl rfl rfl
  | popped id m c hc hm => exact ht.modifyChannel id fun c => (Channel.Kept.pop c).closed
  | turn _ es hes =>
    obtain ⟨hch, -, hf, hcl, -⟩ := L.shared.drain_frame
    have h := (ht.of_eq hch hcl hf).applyEvents limit L.shared.drained
    rcases turn_eq limit L.shared with he | he <;> simp only [he]
    · exact h
    · exact h.of_eq rfl rfl rfl
  | finish => exact terminal_of_map rfl
  | beginClose now =>
    simp only [Shared.beginClose]
    split
    · exact ht
    · exact terminal_of_map rfl
  | claim id c hc hs hcl =>
    exact (ht.modifyChannel id (f := Channel.claim) fun _ h => h).of_eq rfl rfl rfl

/-- A step on a dead connection hands no message to the core. -/
theorem Effect.sends (h : Effect limit pumps L L') (ht : Terminal L.shared)
    (hd : L.shared.dead = true) :
    L'.shared.peer.sends = L.shared.peer.sends := by
  cases h with
  | watch | popped | finish | claim => rfl
  | peer p hp => exact hp
  | sent id message answer hopen =>
    rw [ht.channelState hd] at hopen
    cases hopen
  | turn _ es hes => exact turn_sends limit L.shared
  | beginClose now => simp only [Shared.beginClose]; split <;> rfl

end

/-! ## Sends after the end -/

/-- The number of elements of a `send_via_stream` call that were sent. -/
def Task.sentBefore : Option Task → Nat
  | some (.sendViaStream _ sent _) => sent
  | _ => 0

/-- What a send may have done since it was `t`, on a dead connection: a `send` that has returned
since then returned `closed`; a `send_via_stream` sent no further element, and if it has returned
an error since then, it is `closed` for the element that comes next. -/
def Task.EndedSince (t : Option Task) : Task → Prop
  | .send h message (.returned r) =>
    t = some (.send h message (.returned r)) ∨ r = .error .closed
  | .sendViaStream h sent stage =>
    sent = sentBefore t ∧ ∀ e, stage = .returned (.error e) →
      t = some (.sendViaStream h sent (.returned (.error e))) ∨ e = ⟨.closed, sent⟩
  | _ => True

/-- A `send_via_stream` call has taken an element that is not sent. -/
def SendStream.hasElement : SendStream → Bool
  | .draining .. | .opening .. => true
  | .reading | .returned _ => false

section
variable {limit : Nat} {s : Shared}

/-- `when_open` on a dead connection. -/
theorem Terminal.whenOpen {ρ : Type} (h : Terminal s) (hd : s.dead = true) (id : RTCDataChannelId)
    (op : Shared → Except Error ρ × Shared) :
    whenOpen s id op = (.ret (.error .closed), s) :=
  whenOpen_closed (h.channelState hd id) op

/-- A poll on a dead connection. -/
theorem Task.poll_ended {t₀ : Option Task} {t : Task} {k : TaskId} {now : Instant}
    {answer : Except String Unit} {p : Polled} (ht : Terminal s) (hd : s.dead = true)
    (h : t.poll s k now answer = some p) (he : t.EndedSince t₀) : p.task.EndedSince t₀ := by
  unfold Task.poll at h
  split at h
  · split at h
    · cases h
      simp only [ht.whenOpen hd]
      exact .inr rfl
    · cases h
  · split at h
    · cases h
      simp only [ht.whenOpen hd, SendStream.after]
      refine ⟨he.1, fun e hs => .inr ?_⟩
      cases hs
      rfl
    · cases h
  · split at h
    · cases h; trivial
    · cases h
  · split at h
    · simp only at h
      split at h <;> cases h <;> trivial
    · cases h
  · split at h
    · simp only at h
      split at h <;> cases h <;> trivial
    · cases h
  · split at h
    · cases h; trivial
    · cases h
  · cases h

/-- A stream operation sends nothing. -/
theorem Task.advance_ended {t₀ : Option Task} {t t' : Task} {io : Io}
    (h : t.advance io = some t') (he : t.EndedSince t₀) : t'.EndedSince t₀ := by
  unfold Task.advance at h
  split at h
  · next status =>
    cases h
    refine ⟨he.1, ?_⟩
    intro e hs
    cases hst : status.ended <;> simp [hst] at hs
  · cases h; exact ⟨he.1, nofun⟩
  · split at h
    · split at h <;> cases h <;> exact ⟨he.1, nofun⟩
    · cases h
  all_goals first | (cases h; trivial) | cases h

/-- A waiting `send` that is polled on a dead connection. -/
theorem Terminal.poll_send (ht : Terminal s) (hd : s.dead = true) {h : DataChannel}
    {message : Message} {seen : Option Nat} (hw : s.watch.ready seen = true) (k : TaskId)
    (now : Instant) (answer : Except String Unit) :
    Task.poll s k now answer (.send h message (.pending seen)) =
      some ⟨.send h message (.returned (.error .closed)), s, [], 0⟩ := by
  simp only [Task.poll, if_pos hw, ht.whenOpen hd]
  rfl

/-- A waiting element that is polled on a dead connection. -/
theorem Terminal.poll_element (ht : Terminal s) (hd : s.dead = true) {h : DataChannel} {sent : Nat}
    {status : StreamResult} {message : Message} {seen : Option Nat}
    (hw : s.watch.ready seen = true) (k : TaskId) (now : Instant) (answer : Except String Unit) :
    Task.poll s k now answer (.sendViaStream h sent (.opening status message seen)) =
      some ⟨.sendViaStream h sent (.returned (.error ⟨.closed, sent⟩)), s, [], 0⟩ := by
  simp only [Task.poll, if_pos hw, ht.whenOpen hd]
  rfl

/-- A read that ends the payload stream, or brings the declared bytes, ends the drain. -/
theorem drainStream_ends {length : Nat} {out : Bytes} {r : PayloadRead}
    (h : r.status.ended = true ∨ drainFull length (out ++ r.buf) = true) :
    ∃ bytes, drainStream length out [r] = some bytes := by
  by_cases hfull : drainFull length out = true
  · exact ⟨out, by rw [drainStream, if_pos hfull]⟩
  · by_cases hended : r.status.ended = true
    · exact ⟨out ++ r.buf, by rw [drainStream, if_neg hfull, if_pos hended]⟩
    · refine ⟨out ++ r.buf, ?_⟩
      rw [drainStream, if_neg hfull, if_neg hended, drainStream, if_pos (h.resolve_left hended)]

/-- An element waits for its channel once its payload is drained. -/
theorem Task.advance_drained (h : DataChannel) (sent : Nat) (status : StreamResult)
    (kind : MessageKind) {length : Nat} {out bytes : Bytes} {r : PayloadRead}
    (hfits : r.buf.length ≤ drainWant length out) (hb : drainStream length out [r] = some bytes) :
    (Task.sendViaStream h sent (.draining status kind length out)).advance (.payload r) =
      some (.sendViaStream h sent (.opening status (elementMessage kind bytes) none)) := by
  simp only [Task.advance, if_pos hfits, hb]

/-- A stream operation keeps the element that the call has taken. -/
theorem Task.advance_element {h : DataChannel} {sent : Nat} {stage : SendStream} {io : Io}
    {t : Task} (ha : (Task.sendViaStream h sent stage).advance io = some t)
    (he : stage.hasElement = true) :
    ∃ stage', t = .sendViaStream h sent stage' ∧ stage'.hasElement = true := by
  cases stage with
  | reading | returned => cases he
  | opening => cases io <;> cases ha
  | draining status kind length out =>
    cases io with
    | payload r =>
      simp only [Task.advance] at ha
      split at ha
      · split at ha <;> cases ha <;> exact ⟨_, rfl, rfl⟩
      · cases ha
    | element | accepted | drained | refused => cases ha

end

namespace Conn

variable {limit : Nat} {c₀ c c' : Conn} {a : Act} {as bs : List Act}

/-- What holds of `c` when the connection was dead in `c₀`. -/
structure Ended (c₀ c : Conn) : Prop where
  dead : c.shared.dead = true
  terminal : Terminal c.shared
  sends : c.shared.peer.sends = c₀.shared.peer.sends
  length : c₀.tasks.length ≤ c.tasks.length
  tasks : ∀ (k : TaskId) t, c.tasks[k]? = some t → t.EndedSince c₀.tasks[k]?

theorem Ended.refl (ht : Terminal c.shared) (hd : c.shared.dead = true) : Ended c c := by
  refine ⟨hd, ht, rfl, Nat.le_refl _, ?_⟩
  intro k t hk
  rw [hk]
  cases t with
  | send h message call =>
    cases call with
    | pending => trivial
    | returned r => exact .inl rfl
  | sendViaStream h sent stage => exact ⟨rfl, fun e he => .inl (by rw [he])⟩
  | receive | pumpReceive | pumpIncoming | waitConnected => trivial

/-- Every step keeps it. -/
theorem Ended.step (h : Ended c₀ c) (hs : c.step limit a = some c') : Ended c₀ c' := by
  have he := step_effect hs
  refine ⟨he.flagsKept.dead h.dead, he.terminal h.terminal, ?_, ?_, ?_⟩
  · exact (he.sends h.terminal h.dead).trans h.sends
  · cases step_tasks hs with
    | same ht => rw [ht]; exact h.length
    | spawn t _ ht => rw [ht, List.length_append]; have := h.length; omega
    | poll k t now answer p _ _ ht => rw [ht, List.length_set]; exact h.length
    | io k t t' io _ _ ht => rw [ht, List.length_set]; exact h.length
  · intro k t hk
    cases step_task hs hk with
    | kept hk | other _ _ _ _ _ hk => exact h.tasks k t hk
    | spawned hlen ht =>
      -- the new task's id is new since `c₀` as well
      have hnone : c₀.tasks[k]? = none := by
        rw [List.getElem?_eq_none_iff, hlen]
        exact h.length
      rw [hnone]
      cases t with
      | send h' message call => cases ht; trivial
      | sendViaStream h' sent stage =>
        obtain ⟨rfl, rfl⟩ := ht
        exact ⟨rfl, nofun⟩
      | receive | pumpReceive | pumpIncoming | waitConnected => trivial
    | polled t₀ now answer p hk hp ht =>
      exact ht ▸ Task.poll_ended h.terminal h.dead hp (h.tasks k t₀ hk)
    | advanced t₀ io hk hadv => exact Task.advance_ended hadv (h.tasks k t₀ hk)

theorem Ended.run (h : Ended c₀ c) (hr : Runs.run (Conn.step limit) c as = some c') : Ended c₀ c' :=
  Runs.invariant (I := Ended c₀) (fun _ _ _ hi hs => hi.step hs) h hr

theorem Start.terminal (h : c.Start) : Terminal c.shared := by
  rcases h with rfl | rfl <;> exact fun _ c hc => nomatch hc

theorem terminal_run (hs : c₀.Start) (hr : Runs.run (step limit) c₀ as = some c) :
    Terminal c.shared :=
  Runs.invariant (I := fun c : Conn => Terminal c.shared)
    (fun _ _ _ ht h => (step_effect h).terminal ht) hs.terminal hr

theorem flagsKept_run (hr : Runs.run (step limit) c bs = some c') :
    FlagsKept c.shared c'.shared :=
  run_relates (R := fun L M => FlagsKept L.shared M.shared) (fun _ => .refl _)
    (fun _ _ _ h h' => h.trans h') (fun _ _ _ h => h.flagsKept) hr

/-- A send of the connection waits for its channel to open. -/
def Opening (t : Task) : Prop := (∃ h m v, t = .send h m (.pending v)) ∨
  ∃ h n st m v, t = .sendViaStream h n (.opening st m v)

/-- A send that waits on a dead connection has been woken. -/
theorem Awaits.opening (h : c.Awaits) (hd : c.shared.dead = true) {t : Task} (ht : t ∈ c.tasks)
    (ho : Opening t) : c.shared.watch.ready t.awaited = true := by
  cases ha : t.awaited with
  | none => rfl
  | some v =>
    obtain ⟨-, hw⟩ := h t ht v ha
    by_cases hv : v = c.shared.watch.version
    · have := hw hv
      rcases ho with ⟨_, _, _, rfl⟩ | ⟨_, _, _, _, _, rfl⟩ <;>
        · rw [Task.Waits, hd] at this; cases this.2
    · simpa [StateWatch.ready] using hv

/-- Whatever is sent by a handle is refused: a `send` waits, an element that is read is taken, waits
once its payload is there, and is passed over by no step; and a waiting `send` and a waiting element
return `closed` when they are polled, the element with its index. -/
structure Refuses (limit : Nat) (c : Conn) : Prop where
  calls : ∀ h ∈ c.handles,
    (∀ message, ∃ c', c.step limit (.send h message) = some c' ∧
      c'.tasks[c.tasks.length]? = some (.send h message (.pending none))) ∧
    ∃ c', c.step limit (.sendViaStream h) = some c' ∧
      c'.tasks[c.tasks.length]? = some (.sendViaStream h 0 .reading)
  send : ∀ (k : TaskId) h message seen now answer,
    c.tasks[k]? = some (.send h message (.pending seen)) →
    ∃ c', c.step limit (.poll k now answer) = some c' ∧
      c'.tasks[k]? = some (.send h message (.returned (.error .closed)))
  element : ∀ (k : TaskId) h sent status message seen now answer,
    c.tasks[k]? = some (.sendViaStream h sent (.opening status message seen)) →
    ∃ c', c.step limit (.poll k now answer) = some c' ∧
      c'.tasks[k]? = some (.sendViaStream h sent (.returned (.error ⟨.closed, sent⟩)))
  reads : ∀ (k : TaskId) h sent status kind length,
    c.tasks[k]? = some (.sendViaStream h sent .reading) →
    ∃ c' stage, c.step limit (.io k (.element status (some (kind, length)))) = some c' ∧
      c'.tasks[k]? = some (.sendViaStream h sent stage) ∧ stage.hasElement = true
  drains : ∀ (k : TaskId) h sent status kind length out r,
    c.tasks[k]? = some (.sendViaStream h sent (.draining status kind length out)) →
    r.buf.length ≤ drainWant length out →
    r.status.ended = true ∨ drainFull length (out ++ r.buf) = true →
    ∃ c' message, c.step limit (.io k (.payload r)) = some c' ∧
      c'.tasks[k]? = some (.sendViaStream h sent (.opening status message none))
  taken : ∀ a c', c.step limit a = some c' → ∀ (k : TaskId) h sent stage,
    c.tasks[k]? = some (.sendViaStream h sent stage) → stage.hasElement = true →
    ∃ stage', c'.tasks[k]? = some (.sendViaStream h sent stage') ∧
      (stage'.hasElement = true ∨ stage' = .returned (.error ⟨.closed, sent⟩))

theorem Awaits.refuses (h : c.Awaits) (ht : Terminal c.shared) (hd : c.shared.dead = true) :
    c.Refuses limit where
  calls hdl hmem :=
    ⟨fun _ => ⟨_, if_pos hmem, List.getElem?_concat_length⟩,
      _, if_pos hmem, List.getElem?_concat_length⟩
  send k hdl message seen now answer hk := by
    have hw := h.opening hd (List.mem_of_getElem? hk) (.inl ⟨_, _, _, rfl⟩)
    exact step_poll hk (ht.poll_send hd hw k now answer)
  element k hdl sent status message seen now answer hk := by
    have hw := h.opening hd (List.mem_of_getElem? hk) (.inr ⟨_, _, _, _, _, rfl⟩)
    exact step_poll hk (ht.poll_element hd hw k now answer)
  reads k hdl sent status kind length hk := by
    obtain ⟨c', hs, hk'⟩ :
        ∃ c', c.step limit (.io k (.element status (some (kind, length)))) = some c' ∧ _ :=
      step_io hk rfl
    exact ⟨c', _, hs, hk', rfl⟩
  drains k hdl sent status kind length out r hk hfits hends := by
    obtain ⟨bytes, hbytes⟩ := drainStream_ends hends
    obtain ⟨c', hs, hk'⟩ : ∃ c', c.step limit (.io k (.payload r)) = some c' ∧ _ :=
      step_io hk (Task.advance_drained hdl sent status kind hfits hbytes)
    exact ⟨c', _, hs, hk'⟩
  taken a c' hs k hdl sent stage hk he := by
    cases a with
    | poll k₀ now answer =>
      simp only [Conn.step, Option.map_eq_some_iff, Option.bind_eq_some_iff] at hs
      obtain ⟨p, ⟨t, hk₀, hp⟩, rfl⟩ := hs
      by_cases hkk : k₀ = k
      · subst hkk
        rw [hk] at hk₀
        cases hk₀
        cases stage with
        | reading | returned | draining => cases hp
        | opening status message seen =>
          have hw : c.shared.watch.ready seen = true :=
            h.opening hd (List.mem_of_getElem? hk) (.inr ⟨_, _, _, _, _, rfl⟩)
          rw [ht.poll_element hd hw] at hp
          cases hp
          exact ⟨_, List.getElem?_set_self (List.getElem?_eq_some_iff.1 hk).1, .inr rfl⟩
      · exact ⟨stage, by rw [List.getElem?_set_ne hkk, hk], .inl he⟩
    | io k₀ io =>
      simp only [Conn.step, Option.bind_eq_some_iff, Option.map_eq_some_iff] at hs
      obtain ⟨t, hk₀, t', ha, rfl⟩ := hs
      by_cases hkk : k₀ = k
      · subst hkk
        rw [hk] at hk₀
        cases hk₀
        obtain ⟨stage', rfl, he'⟩ := Task.advance_element ha he
        exact ⟨stage', List.getElem?_set_self (List.getElem?_eq_some_iff.1 hk).1, .inl he'⟩
      · exact ⟨stage, by rw [List.getElem?_set_ne hkk, hk], .inl he⟩
    | core | turn | finish | createDataChannel | incomingDataChannels | close | send
    | sendViaStream | receive | receiveViaStream | waitConnected =>
      have hkeeps := step_keeps hs hk (fun _ _ h => by cases h) (fun _ h => by cases h)
      exact ⟨stage, hkeeps, .inl he⟩

end Conn

/-- **A dead connection is terminally closed.** In every state `c` that a connection reaches, the
channels of a dead connection are closed; the local close, a drained Failed or Closed event and the
pump's exit make it dead; and in every state `c'` after it no flag has been cleared. From a dead `c`
on, `when_open` returns `closed` without running its operation, on every id and in every later
state; no message has been handed to the core; every waiting send has been woken, and every send and
every element of a stream is refused with `closed`; and every send that returned since then, and
every element of a stream, got `closed`. -/
theorem closed_terminally (limit : Nat) {c₀ c c' : Conn} {as bs : List Act} (h₀ : c₀.Start)
    (hc : Runs.run (Conn.step limit) c₀ as = some c)
    (hc' : Runs.run (Conn.step limit) c bs = some c') :
    Terminal c.shared ∧ FlagsKept c.shared c'.shared ∧
    (∀ now, (c.shared.beginClose now).dead = true) ∧ c.shared.finish.dead = true ∧
    ((.failed ∈ c.shared.drained ∨ .closed ∈ c.shared.drained) →
      (c.shared.turn limit).dead = true) ∧
    (c.shared.dead = true →
      c'.shared.dead = true ∧ c'.shared.peer.sends = c.shared.peer.sends ∧
      (∀ id message answer, whenOpen c'.shared id (handOver id message answer) =
        (.ret (.error .closed), c'.shared)) ∧
      (∀ t ∈ c'.tasks, Conn.Opening t → c'.shared.watch.ready t.awaited = true) ∧
      c'.Refuses limit ∧
      ∀ (k : TaskId) t, c'.tasks[k]? = some t → t.EndedSince c.tasks[k]?) := by
  have ht := Conn.terminal_run h₀ hc
  refine ⟨ht, Conn.flagsKept_run hc', fun now => ?_, by simp [Shared.finish, Shared.dead],
    fun hes => ?_, fun hd => ?_⟩
  · unfold Shared.beginClose
    split
    · next h => exact h
    · rfl
  · have hdead := applyEvents_dead limit c.shared.drain hes
    rcases turn_eq limit c.shared with he | he <;> rw [he] <;> exact hdead
  · have he := (Conn.Ended.refl ht hd).run hc'
    have hw : c'.Awaits := Conn.Awaits.run h₀ (Runs.run_append_eq_some.2 ⟨c, hc, hc'⟩)
    exact ⟨he.dead, he.sends, fun id _ _ => he.terminal.whenOpen he.dead id _,
      fun t hm ho => hw.opening he.dead hm ho, hw.refuses he.terminal he.dead, he.tasks⟩

/-- A send waits on a channel that is still opening when the connection is closed; the open is
drained after the close. -/
theorem closed_terminally_of_late_open :
    ∃ c c', Runs.run (Conn.step 8) .bound
        [.createDataChannel "a" (.ok 0), .send ⟨.pump, 0, "a"⟩ (.string "x"), .poll 0 0 (.ok ()),
          .close 5] = some c ∧
      Runs.run (Conn.step 8) c
        [.core [.onDataChannel (.onOpen 0)] [] [], .turn 6, .poll 0 7 (.ok ())] = some c' ∧
      c.shared.dead = true ∧ c'.shared.peer.sends = c.shared.peer.sends ∧
      c'.tasks = [.send ⟨.pump, 0, "a"⟩ (.string "x") (.returned (.error .closed))] ∧
      whenOpen c'.shared 0 (handOver 0 (.string "y") (.ok ())) =
        (.ret (.error .closed), c'.shared) := by
  refine ⟨_, _, rfl, rfl, rfl, ?_⟩
  have h := @closed_terminally 8 .bound _ _
    [.createDataChannel "a" (.ok 0), .send ⟨.pump, 0, "a"⟩ (.string "x"), .poll 0 0 (.ok ()),
      .close 5]
    [.core [.onDataChannel (.onOpen 0)] [] [], .turn 6, .poll 0 7 (.ok ())] (.inl rfl) rfl rfl
  obtain ⟨-, hsends, hwhen, -⟩ := h.2.2.2.2.2 rfl
  exact ⟨hsends, rfl, hwhen 0 (.string "y") (.ok ())⟩

end WebrtcDatachannels.Guest
