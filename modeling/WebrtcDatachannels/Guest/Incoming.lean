import WebrtcDatachannels.Guest.Closed

/-!
# The streams of `incoming-data-channels`

Each call of `incoming_data_channels` spawns a `pump_incoming` feeder that walks the tracked
channels from its own cursor and skips the one id it remembers as local, the `local_channel` of the
moment of the call. `Conn.IncomingExact` says what the streams are for: the channels are tracked as
they open (`Conn.TracksOpens`), the first stream yields the remote-opened ones, each once and in
open order, and the later ones end without yielding; and no feeder ends or waits with a channel left
that it does not skip (`Conn.Serves`). It holds along a run exactly when what the feeders remember
and where they start does not matter (`incoming_exact_iff`): every locally created channel that a
live first stream sees is the one it remembers, and a further stream is taken from a dead connection
with nothing to replay.
-/

namespace WebrtcDatachannels.Guest

/-- The ids that a stream has yielded or its feeder holds. -/
def given (yielded : List DataChannel) (feed : Feed DataChannel) : List RTCDataChannelId :=
  (yielded ++ feed.inHand).map DataChannel.id

/-- The ids among `ids` that a feeder which remembers `localChannel` does not skip. -/
def passed (localChannel : Option RTCDataChannelId) (ids : List RTCDataChannelId) :
    List RTCDataChannelId :=
  ids.filter fun id => some id ≠ localChannel

theorem mem_passed {localChannel : Option RTCDataChannelId} {ids : List RTCDataChannelId}
    {id : RTCDataChannelId} : id ∈ passed localChannel ids ↔ id ∈ ids ∧ some id ≠ localChannel := by
  simp [passed]

/-- A channel that is not passed on is the one to skip. -/
theorem eq_of_not_mem_passed {localChannel : Option RTCDataChannelId}
    {ids : List RTCDataChannelId} {id : RTCDataChannelId} (hid : id ∈ ids)
    (h : id ∉ passed localChannel ids) : localChannel = some id := by
  by_contra hne
  exact h (mem_passed.2 ⟨hid, Ne.symm hne⟩)

/-- The ids that are tracked once events are drained: each channel once, in open order. -/
def tracked (ids : List RTCDataChannelId) : List PeerEvent → List RTCDataChannelId
  | [] => ids
  | .channelOpen id _ :: es => tracked (if id ∈ ids then ids else ids ++ [id]) es
  | _ :: es => tracked ids es

namespace Conn

/-- The ids of the tracked channels, in open order. -/
def ids (c : Conn) : List RTCDataChannelId := c.ledger.ids

/-- The ids among `ids` that the remote peer opened. -/
def remote (c : Conn) (ids : List RTCDataChannelId) : List RTCDataChannelId :=
  ids.filter (· ∉ c.created)

theorem mem_remote {c : Conn} {ids : List RTCDataChannelId} {id : RTCDataChannelId} :
    id ∈ c.remote ids ↔ id ∈ ids ∧ id ∉ c.created := by
  simp [remote]

/-- The task `k` feeds an incoming stream. -/
def Incoming (c : Conn) (k : TaskId) : Prop :=
  ∃ l cursor yielded feed, c.tasks[k]? = some (.pumpIncoming l cursor yielded feed)

/-- No incoming stream was taken before the task `k`. -/
def First (c : Conn) (k : TaskId) : Prop := ∀ k' < k, ¬ c.Incoming k'

/-- What the first stream is for: it has yielded the remote-opened channels up to its cursor, each
once and in open order; while it lives, it goes on with the remote-opened ones after the cursor; it
ends with the connection, and waits only when there is none. -/
structure YieldsRemote (c : Conn) (l : Option RTCDataChannelId) (cursor : Nat)
    (yielded : List DataChannel) (feed : Feed DataChannel) : Prop where
  given : given yielded feed = c.remote (c.ids.take cursor)
  rest : feed.live = true → passed l (c.ids.drop cursor) = c.remote (c.ids.drop cursor)
  ended : feed = .done → c.shared.dead = true
  waits : feed = .looping (some c.shared.watch.version) → passed l (c.ids.drop cursor) = []

/-- What a later stream is for: it yields nothing and has nothing to yield, and it has ended or is
about to. -/
structure YieldsNothing (c : Conn) (l : Option RTCDataChannelId) (cursor : Nat)
    (yielded : List DataChannel) (feed : Feed DataChannel) : Prop where
  given : given yielded feed = []
  rest : feed.live = true → passed l (c.ids.drop cursor) = []
  ends : feed = .done ∨ c.shared.dead = true

/-- What the feeder of a stream does. Polled in its loop it takes the next channel that it does not
skip, and with none left on a dead connection it ends; a channel in its hand is yielded when the
reader takes it; and no step ends it with a channel left, or on a live connection. -/
structure Serves (limit : Nat) (c : Conn) (k : TaskId) (l : Option RTCDataChannelId) (cursor : Nat)
    (yielded : List DataChannel) (feed : Feed DataChannel) : Prop where
  takes : ∀ seen id rest now answer, feed = .looping seen →
    passed l (c.ids.drop cursor) = id :: rest →
    ∃ c' cursor' label, c.step limit (.poll k now answer) = some c' ∧
      c'.tasks[k]? = some (.pumpIncoming l cursor' yielded (.writing ⟨.detached, id, label⟩)) ∧
      passed l (c'.ids.drop cursor') = rest
  ends : ∀ seen now answer, feed = .looping seen → passed l (c.ids.drop cursor) = [] →
    c.shared.dead = true →
    ∃ c' cursor', c.step limit (.poll k now answer) = some c' ∧
      c'.tasks[k]? = some (.pumpIncoming l cursor' yielded .done)
  yields : ∀ handle, feed = .writing handle →
    ∃ c', c.step limit (.io k .accepted) = some c' ∧
      c'.tasks[k]? = some (.pumpIncoming l cursor (yielded ++ [handle]) (.looping none))
  ended : ∀ a c' l' cursor' yielded', c.step limit a = some c' →
    c'.tasks[k]? = some (.pumpIncoming l' cursor' yielded' .done) →
    feed = .done ∨ (passed l (c.ids.drop cursor) = [] ∧ c.shared.dead = true)

/-- A block of the pump tracks the channels whose opens it drains, and no other step tracks one. -/
structure TracksOpens (limit : Nat) (c : Conn) : Prop where
  turn : ∀ now c', c.step limit (.turn now) = some c' → c'.ids = tracked c.ids c.shared.drained
  other : ∀ a c', (∀ now, a ≠ .turn now) → c.step limit a = some c' → c'.ids = c.ids

/-- The channels are tracked as they open, and the streams of `incoming-data-channels` yield exactly
the remote-opened ones, once each. -/
def IncomingExact (limit : Nat) (c : Conn) : Prop :=
  c.TracksOpens limit ∧ ∀ (k : TaskId) l cursor yielded feed,
    c.tasks[k]? = some (.pumpIncoming l cursor yielded feed) →
    (c.First k → c.YieldsRemote l cursor yielded feed) ∧
    (¬ c.First k → c.YieldsNothing l cursor yielded feed) ∧
    c.Serves limit k l cursor yielded feed

/-- The first stream is taken when every tracked channel that was created locally is the one
remembered, and a further stream from a dead connection whose tracked channels are all the one
remembered; and an open is drained only for a channel that a live first stream does not take for a
remote one, and that a live further stream skips. -/
def IncomingOnce (c : Conn) : Act → Prop
  | .incomingDataChannels =>
    ((∀ k, ¬ c.Incoming k) → ∀ id ∈ c.ids, id ∈ c.created → c.localChannel = some id) ∧
    ((∃ k, c.Incoming k) → c.shared.dead = true ∧ ∀ id ∈ c.ids, c.localChannel = some id)
  | .turn _ =>
    ∀ id label, .channelOpen id label ∈ c.shared.drained → id ∉ c.ids →
      ∀ (k : TaskId) l cursor yielded feed,
        c.tasks[k]? = some (.pumpIncoming l cursor yielded feed) → feed.live = true →
        (c.First k → id ∈ c.created → l = some id) ∧ (¬ c.First k → l = some id)
  | _ => True

end Conn

/-! ## The list of channels -/

section
variable {limit : Nat}

theorem channel?_eq_none_iff (s : Shared) (id : RTCDataChannelId) :
    s.channel? id = none ↔ id ∉ s.channels.map Channel.id := by
  rw [Shared.channel?, Keyed.find?_eq_none, List.mem_map]
  constructor
  · intro h hmem
    obtain ⟨c, hc, he⟩ := hmem
    exact h c hc he
  · intro h c hc he
    exact h ⟨c, hc, he⟩

/-- The ids that a fold of events adds, at the end: those of opens of channels that were not
tracked. -/
theorem ids_applyEvents (limit : Nat) (s : Shared) (es : List PeerEvent) :
    ∃ new, (s.applyEvents limit es).channels.map Channel.id = s.channels.map Channel.id ++ new ∧
      ∀ id ∈ new, id ∉ s.channels.map Channel.id ∧ ∃ label, .channelOpen id label ∈ es := by
  induction es generalizing s with
  | nil => exact ⟨[], by simp, nofun⟩
  | cons e es ih =>
    obtain ⟨new, hnew, hopen⟩ := ih (s.applyEvent limit e)
    rw [Shared.applyEvents_cons, hnew]
    rcases Ledger.ids_applyEvent limit s e with he | ⟨id, label, rfl, hc, he⟩
    · refine ⟨new, by rw [he], fun id hid => ?_⟩
      obtain ⟨hn, label, hl⟩ := hopen id hid
      exact ⟨he ▸ hn, label, .tail _ hl⟩
    · refine ⟨id :: new, by rw [he]; simp, fun id' hid' => ?_⟩
      rcases List.mem_cons.1 hid' with rfl | hid'
      · exact ⟨(channel?_eq_none_iff s _).1 hc, label, .head _⟩
      · obtain ⟨hn, label', hl⟩ := hopen id' hid'
        rw [he, List.mem_append, not_or] at hn
        exact ⟨hn.1, label', .tail _ hl⟩

/-- A fold of events tracks the channels whose opens it holds. -/
theorem ids_applyEvents_eq (limit : Nat) (s : Shared) (es : List PeerEvent) :
    (s.applyEvents limit es).channels.map Channel.id = tracked (s.channels.map Channel.id) es := by
  induction es generalizing s with
  | nil => rfl
  | cons e es ih =>
    rw [Shared.applyEvents_cons, ih]
    have hids := Ledger.ids_applyEvent limit s e
    cases e with
    | channelOpen id label =>
      refine congrArg (tracked · es) ?_
      cases hc : s.channel? id with
      | some c =>
        obtain ⟨hm, rfl⟩ := Keyed.mem_of_find? hc
        rw [if_pos (List.mem_map_of_mem hm)]
        simp [Shared.applyEvent, hc]
      | none =>
        rw [if_neg ((channel?_eq_none_iff s id).1 hc)]
        simp [Shared.applyEvent, hc, Channel.new]
    | connected | failed | closed | channelClosed | message =>
      obtain h | ⟨id, label, he, -⟩ := hids
      · exact congrArg (tracked · es) h
      · cases he

/-- A fold of events tracks every channel it opens. -/
theorem mem_ids_of_open {s : Shared} {es : List PeerEvent} {id : RTCDataChannelId} {label : String}
    (h : .channelOpen id label ∈ es) : id ∈ (s.applyEvents limit es).channels.map Channel.id := by
  obtain ⟨pre, post, rfl⟩ := List.append_of_mem h
  rw [Shared.applyEvents_append, Shared.applyEvents_cons]
  obtain ⟨new, hnew, -⟩ := ids_applyEvents limit
    ((s.applyEvents limit pre).applyEvent limit (.channelOpen id label)) post
  rw [hnew, List.mem_append]
  refine .inl ?_
  cases hc : (s.applyEvents limit pre).channel? id with
  | some c =>
    obtain ⟨hm, hid⟩ := Keyed.mem_of_find? hc
    simp only [Shared.applyEvent, hc]
    exact hid ▸ List.mem_map_of_mem hm
  | none => simp [Shared.applyEvent, hc, Channel.new]

theorem turn_channels (s : Shared) :
    (s.turn limit).channels = (s.drain.applyEvents limit s.drained).channels := by
  rcases turn_eq limit s with he | he <;> rw [he]
  rfl

/-- The ids that a step adds, at the end: only a block of the pump adds ids, those of drained opens
of channels that were not tracked. -/
theorem Effect.ids {pumps : Prop} {L L' : Ledger} (h : Effect limit pumps L L') :
    ∃ new, L'.ids = L.ids ++ new ∧
      ∀ id ∈ new, pumps ∧ id ∉ L.ids ∧ ∃ label, .channelOpen id label ∈ L.shared.drained := by
  have hsame : L'.ids = L.ids → ∃ new, L'.ids = L.ids ++ new ∧
      ∀ id ∈ new, pumps ∧ id ∉ L.ids ∧ ∃ label, .channelOpen id label ∈ L.shared.drained :=
    fun he => ⟨[], by rw [he, List.append_nil], nofun⟩
  cases h with
  | watch | peer | sent => exact hsame rfl
  | popped id m c hc hm => exact hsame (Ledger.ids_modify _ id Channel.pop_id)
  | turn hpumps es hes =>
    obtain ⟨new, hnew, hopen⟩ := ids_applyEvents limit L.shared.drain L.shared.drained
    rw [L.shared.drain_frame.1] at hnew hopen
    exact ⟨new, by rw [Ledger.ids, turn_channels]; exact hnew,
      fun id hid => ⟨hpumps, hopen id hid⟩⟩
  | finish => exact hsame (Ledger.ids_closeChannels _)
  | beginClose now =>
    refine hsame ?_
    simp only [Ledger.ids, Shared.beginClose]
    split
    · rfl
    · exact Ledger.ids_closeChannels _
  | claim id c hc hs hcl => exact hsame (Ledger.ids_modify _ id Channel.claim_id)

end

/-- The cursor moved past `mid`. -/
theorem take_drop_add {α : Type} {l mid rest : List α} {n : Nat} (h : l.drop n = mid ++ rest) :
    l.take (n + mid.length) = l.take n ++ mid ∧ l.drop (n + mid.length) = rest := by
  rw [List.take_add, ← List.drop_drop, h]
  simp

/-! ## Streams over a step -/

/-- What a poll leaves of an incoming stream: it found a channel, or it ended or waits because there
is none. -/
theorem Task.poll_incoming {s : Shared} {t : Task} {k : TaskId} {now : Instant}
    {answer : Except String Unit} {p : Polled} (h : t.poll s k now answer = some p)
    {l : Option RTCDataChannelId} {cursor : Nat} {yielded : List DataChannel}
    {feed : Feed DataChannel} (hp : p.task = .pumpIncoming l cursor yielded feed) :
    ∃ cursor₀ seen, t = .pumpIncoming l cursor₀ yielded (.looping seen) ∧
      ((∃ id label, feed = .writing ⟨.detached, id, label⟩ ∧
          scanIncoming l (s.channels.drop cursor₀) cursor₀ = (some (id, label), cursor)) ∨
        ((scanIncoming l (s.channels.drop cursor₀) cursor₀).1 = none ∧
          cursor = (scanIncoming l (s.channels.drop cursor₀) cursor₀).2 ∧
          ((feed = .done ∧ s.dead = true) ∨
            (feed = .looping (some s.watch.version) ∧ s.dead = false)))) := by
  unfold Task.poll at h
  split at h
  · split at h <;> cases h
    cases hp
  · split at h <;> cases h
    cases hp
  · split at h <;> cases h
    cases hp
  · split at h
    · simp only at h
      split at h <;> cases h <;> cases hp
    · cases h
  · next l' cursor₀ yielded' seen =>
    split at h
    · simp only at h
      split at h
      · next id label hf =>
        cases h
        cases hp
        exact ⟨cursor₀, seen, rfl, .inl ⟨id, label, rfl, Prod.ext hf rfl⟩⟩
      · next hf =>
        split at h
        · next hd =>
          cases h
          cases hp
          exact ⟨cursor₀, seen, rfl, .inr ⟨hf, rfl, .inl ⟨rfl, hd⟩⟩⟩
        · next hd =>
          cases h
          cases hp
          exact ⟨cursor₀, seen, rfl, .inr ⟨hf, rfl, .inr ⟨rfl, eq_false_of_ne_true hd⟩⟩⟩
    · cases h
  · split at h <;> cases h
    cases hp
  · cases h

/-- A poll of an incoming stream leaves the list of channels and the connection's flags. -/
theorem Task.poll_scan {s : Shared} {t : Task} {k : TaskId} {now : Instant}
    {answer : Except String Unit} {p : Polled} (h : t.poll s k now answer = some p)
    {l : Option RTCDataChannelId} {cursor : Nat} {yielded : List DataChannel}
    {feed : Feed DataChannel} (hp : p.task = .pumpIncoming l cursor yielded feed) :
    p.shared.channels = s.channels ∧ p.shared.dead = s.dead := by
  obtain ⟨cursor₀, seen, rfl, -⟩ := Task.poll_incoming h hp
  simp only [Task.poll] at h
  split at h
  · split at h
    · cases h; exact ⟨rfl, rfl⟩
    · split at h <;> cases h <;> exact ⟨rfl, rfl⟩
  · cases h

/-- What a stream operation leaves of an incoming stream has been in its feeder's hand. -/
theorem Task.advance_yields {t : Task} {io : Io} {l : Option RTCDataChannelId} {cursor : Nat}
    {yielded : List DataChannel} {feed : Feed DataChannel}
    (h : t.advance io = some (.pumpIncoming l cursor yielded feed)) :
    ∃ yielded' handle, t = .pumpIncoming l cursor yielded' (.writing handle) ∧
      yielded ++ feed.inHand = yielded' ++ [handle] ∧ feed ≠ .done := by
  unfold Task.advance at h
  split at h
  · cases h
  · cases h
  · split at h
    · split at h <;> cases h
    · cases h
  · cases h
  · cases h
  · cases h
  · cases h; exact ⟨_, _, rfl, List.append_nil _, nofun⟩
  · cases h; exact ⟨_, _, rfl, rfl, nofun⟩
  · cases h

/-- What a stream operation leaves of an incoming stream. -/
theorem Task.advance_incoming {t t' : Task} {io : Io} (h : t.advance io = some t')
    {l : Option RTCDataChannelId} {cursor : Nat} {yielded : List DataChannel}
    {feed : Feed DataChannel} (ht : t' = .pumpIncoming l cursor yielded feed) :
    ∃ yielded' handle, t = .pumpIncoming l cursor yielded' (.writing handle) ∧
      given yielded feed = given yielded' (.writing handle) ∧ feed ≠ .done := by
  subst ht
  obtain ⟨yielded', handle, ht, hy, hd⟩ := Task.advance_yields h
  exact ⟨yielded', handle, ht, by rw [given, hy]; rfl, hd⟩

/-- A poll keeps an incoming stream, with what it remembers. -/
theorem Task.poll_pumpIncoming {s : Shared} {k : TaskId} {now : Instant}
    {answer : Except String Unit} {p : Polled} {l : Option RTCDataChannelId} {cursor : Nat}
    {yielded : List DataChannel} {feed : Feed DataChannel}
    (h : (Task.pumpIncoming l cursor yielded feed).poll s k now answer = some p) :
    ∃ cursor' feed', p.task = .pumpIncoming l cursor' yielded feed' := by
  cases feed with
  | looping seen =>
    simp only [Task.poll] at h
    split at h
    · split at h
      · cases h; exact ⟨_, _, rfl⟩
      · split at h <;> cases h <;> exact ⟨_, _, rfl⟩
    · cases h
  | writing | payload | done | dropped => cases h

/-- A stream operation keeps an incoming stream, with its cursor and what it remembers. -/
theorem Task.advance_pumpIncoming {t' : Task} {io : Io} {l : Option RTCDataChannelId} {cursor : Nat}
    {yielded : List DataChannel} {feed : Feed DataChannel}
    (h : (Task.pumpIncoming l cursor yielded feed).advance io = some t') :
    ∃ yielded' feed', t' = .pumpIncoming l cursor yielded' feed' := by
  cases feed with
  | writing hd =>
    cases io with
    | accepted | refused => cases h; exact ⟨_, _, rfl⟩
    | element | payload | drained => cases h
  | looping | payload | done | dropped => cases h

namespace Conn

variable {limit : Nat} {c c' : Conn} {a : Act} {l : Option RTCDataChannelId} {cursor : Nat}
  {yielded : List DataChannel} {feed : Feed DataChannel}

/-- A step keeps every incoming stream. -/
theorem Incoming.step (h : c.step limit a = some c') {k : TaskId} (hk : c.Incoming k) :
    c'.Incoming k := by
  obtain ⟨l, cursor, yielded, feed, hk⟩ := hk
  have hlt : k < c.tasks.length := (List.getElem?_eq_some_iff.1 hk).1
  cases step_tasks h with
  | same he => exact ⟨l, cursor, yielded, feed, he ▸ hk⟩
  | spawn t _ he =>
    exact ⟨l, cursor, yielded, feed, by rw [he, List.getElem?_append_left hlt]; exact hk⟩
  | poll k' t now answer p hk' hp he =>
    by_cases hkk : k' = k
    · subst hkk
      rw [hk] at hk'
      cases hk'
      obtain ⟨cursor', feed', hp'⟩ := Task.poll_pumpIncoming hp
      exact ⟨l, cursor', yielded, feed', by rw [he, List.getElem?_set_self hlt, hp']⟩
    · exact ⟨l, cursor, yielded, feed, by rw [he, List.getElem?_set_ne hkk]; exact hk⟩
  | io k' t t' io hk' hadv he =>
    by_cases hkk : k' = k
    · subst hkk
      rw [hk] at hk'
      cases hk'
      obtain ⟨yielded', feed', rfl⟩ := Task.advance_pumpIncoming hadv
      exact ⟨l, cursor, yielded', feed', by rw [he, List.getElem?_set_self hlt]⟩
    · exact ⟨l, cursor, yielded, feed, by rw [he, List.getElem?_set_ne hkk]; exact hk⟩

/-- An incoming stream after a step is one from before it, or the one the step took. -/
theorem incoming_step (h : c.step limit a = some c') {k : TaskId} (hk : c'.Incoming k) :
    c.Incoming k ∨ (k = c.tasks.length ∧ a = .incomingDataChannels) := by
  obtain ⟨l, cursor, yielded, feed, hk⟩ := hk
  cases step_task h hk with
  | kept hk | other _ _ _ _ _ hk => exact .inl ⟨_, _, _, _, hk⟩
  | spawned hlen ht => exact .inr ⟨hlen, ht.2.2.2.2⟩
  | polled t now answer p hk hp ht =>
    obtain ⟨cursor₀, seen, rfl, -⟩ := Task.poll_incoming hp ht
    exact .inl ⟨_, _, _, _, hk⟩
  | advanced t io hk hadv =>
    obtain ⟨y', hd, rfl, -⟩ := Task.advance_incoming hadv rfl
    exact .inl ⟨_, _, _, _, hk⟩

/-- Whether a stream is the first does not change. -/
theorem first_step (h : c.step limit a = some c') {k : TaskId} (hk : k ≤ c.tasks.length) :
    c'.First k ↔ c.First k := by
  refine ⟨fun hf k' hlt hi => hf k' hlt (hi.step h), ?_⟩
  intro hf k' hlt hi
  rcases incoming_step h hi with hi | ⟨rfl, -⟩
  · exact hf k' hlt hi
  · exact absurd hlt (Nat.not_lt.2 hk)

/-- What a step does to the ids created locally: nothing, or a fresh one is created and
remembered. -/
theorem step_created (h : c.step limit a = some c') :
    (c'.created = c.created ∧ c'.localChannel = c.localChannel) ∨
    ∃ id, id ∉ c.ids ∧ c'.created = c.created ++ [id] ∧ c'.localChannel = some id ∧
      c'.ids = c.ids ∧ c'.tasks = c.tasks := by
  cases a with
  | createDataChannel label answer =>
    cases answer with
    | error e => cases h; exact .inl ⟨rfl, rfl⟩
    | ok id =>
      simp only [Conn.step, createDataChannel] at h
      split at h
      · next hfresh =>
        cases h
        exact .inr ⟨id, (channel?_eq_none_iff _ _).1 hfresh.1, rfl, rfl, rfl, rfl⟩
      · cases h
  | core | incomingDataChannels | close | waitConnected => cases h; exact .inl ⟨rfl, rfl⟩
  | turn | finish | send | sendViaStream | receive =>
    simp only [Conn.step] at h
    split at h
    · cases h; exact .inl ⟨rfl, rfl⟩
    · cases h
  | receiveViaStream hd =>
    simp only [Conn.step] at h
    split at h
    · cases h
      unfold receiveViaStream
      simp only
      split <;> exact .inl ⟨rfl, rfl⟩
    · cases h
  | poll k now answer =>
    simp only [Conn.step, Option.map_eq_some_iff] at h
    obtain ⟨p, -, rfl⟩ := h
    exact .inl ⟨rfl, rfl⟩
  | io k io =>
    simp only [Conn.step, Option.bind_eq_some_iff, Option.map_eq_some_iff] at h
    obtain ⟨t, -, t', -, rfl⟩ := h
    exact .inl ⟨rfl, rfl⟩

/-! ## The invariant -/

/-- The first stream, with what its feeder will make of each channel after the cursor. -/
structure FirstInv (c : Conn) (l : Option RTCDataChannelId) (cursor : Nat)
    (yielded : List DataChannel) (feed : Feed DataChannel) : Prop where
  given : given yielded feed = c.remote (c.ids.take cursor)
  rest : feed.live = true → ∀ id ∈ c.ids.drop cursor, (some id ≠ l ↔ id ∉ c.created)
  ended : feed = .done → c.shared.dead = true

/-- A later stream, with what its feeder will make of each channel after the cursor. -/
structure LaterInv (c : Conn) (l : Option RTCDataChannelId) (cursor : Nat)
    (yielded : List DataChannel) (feed : Feed DataChannel) : Prop where
  given : Guest.given yielded feed = []
  rest : feed.live = true → ∀ id ∈ c.ids.drop cursor, some id = l
  ends : feed = .done ∨ c.shared.dead = true

/-- A stream: its cursor is in the list, what it remembers was created locally, and it is in order
as the first or as a later one. -/
structure StreamInv (c : Conn) (k : TaskId) (l : Option RTCDataChannelId) (cursor : Nat)
    (yielded : List DataChannel) (feed : Feed DataChannel) : Prop where
  bound : cursor ≤ c.ids.length
  created : ∀ id, l = some id → id ∈ c.created
  first : c.First k → c.FirstInv l cursor yielded feed
  later : ¬ c.First k → c.LaterInv l cursor yielded feed

/-- What carries the exactness of the streams over a run. -/
structure IncomingInv (c : Conn) : Prop where
  awaits : c.Awaits
  localChannel : ∀ id, c.localChannel = some id → id ∈ c.created
  streams : ∀ (k : TaskId) l cursor yielded feed,
    c.tasks[k]? = some (.pumpIncoming l cursor yielded feed) →
    c.StreamInv k l cursor yielded feed

/-- How the list of channels and the created ids go from `c` to `c'`: the list grows by `new` at its
end, and what is created later is not in it. -/
structure Grown (c c' : Conn) (new : List RTCDataChannelId) : Prop where
  ids : c'.ids = c.ids ++ new
  created : ∀ id ∈ c'.ids, (id ∈ c'.created ↔ id ∈ c.created)
  mono : ∀ id ∈ c.created, id ∈ c'.created
  dead : c.shared.dead = true → c'.shared.dead = true

theorem step_grown (h : c.step limit a = some c') :
    ∃ new, Grown c c' new ∧ ∀ id ∈ new, (∃ now, a = .turn now) ∧ id ∉ c.ids ∧
      ∃ label, .channelOpen id label ∈ c.shared.drained := by
  have he := step_effect h
  rcases step_created h with ⟨hcr, -⟩ | ⟨id, hid, hcr, -, hids, -⟩
  · obtain ⟨new, hnew, hopen⟩ := he.ids
    exact ⟨new, ⟨hnew, fun _ _ => by rw [hcr], fun _ h => hcr ▸ h, he.flagsKept.dead⟩, hopen⟩
  · refine ⟨[], ⟨by rw [hids, List.append_nil], fun x hx => ?_, fun x hx => ?_,
      he.flagsKept.dead⟩, nofun⟩
    · have hne : x ≠ id := fun hxe => hid (hids ▸ hxe ▸ hx)
      simp [hcr, hne]
    · rw [hcr]
      exact List.mem_append_left _ hx

/-- A stream that a step does not touch, when it skips what it has to of the new channels. -/
theorem StreamInv.grow {k : TaskId} (hi : c.StreamInv k l cursor yielded feed)
    {new : List RTCDataChannelId} (hg : Grown c c' new) (hk : c'.First k ↔ c.First k)
    (hnew : feed.live = true → ∀ id ∈ new,
      (c.First k → id ∈ c.created → l = some id) ∧ (¬ c.First k → l = some id)) :
    c'.StreamInv k l cursor yielded feed := by
  have htake : c'.ids.take cursor = c.ids.take cursor := by
    rw [hg.ids, List.take_append_of_le_length hi.bound]
  have hdrop : c'.ids.drop cursor = c.ids.drop cursor ++ new := by
    rw [hg.ids, List.drop_append_of_le_length hi.bound]
  have hsub : ∀ id ∈ c.ids, id ∈ c'.ids := fun id hid => by
    rw [hg.ids]
    exact List.mem_append_left _ hid
  refine ⟨?_, fun id hl => hg.mono id (hi.created id hl), ?_, ?_⟩
  · rw [hg.ids, List.length_append]
    have := hi.bound
    omega
  · intro hf
    have hf' := hk.1 hf
    obtain ⟨hgiven, hrest, hend⟩ := hi.first hf'
    refine ⟨?_, ?_, fun hd => hg.dead (hend hd)⟩
    · rw [hgiven, htake]
      refine List.filter_congr ?_
      intro id hid
      have := hg.created id (hsub id (List.mem_of_mem_take hid))
      simp [this]
    · intro hl id hid
      rw [hg.created id (List.mem_of_mem_drop hid)]
      rw [hdrop] at hid
      rcases List.mem_append.1 hid with hid | hid
      · exact hrest hl id hid
      · refine ⟨fun hne hcr => hne ((hnew hl id hid).1 hf' hcr).symm, ?_⟩
        intro hcr he
        exact hcr (hi.created id he.symm)
  · intro hf
    have hf' := fun h => hf (hk.2 h)
    obtain ⟨hgiven, hrest, hend⟩ := hi.later hf'
    refine ⟨hgiven, ?_, hend.imp_right hg.dead⟩
    intro hl id hid
    rw [hdrop] at hid
    rcases List.mem_append.1 hid with hid | hid
    · exact hrest hl id hid
    · exact ((hnew hl id hid).2 hf').symm

/-- The ids of the channels from a cursor on. -/
theorem ids_drop (cursor : Nat) :
    (c.shared.channels.drop cursor).map Channel.id = c.ids.drop cursor :=
  List.map_drop

/-- What a stream's feeder has yet to look at. -/
theorem StreamInv.drop_length {k : TaskId} (hi : c.StreamInv k l cursor yielded feed) :
    cursor + (c.ids.drop cursor).length = c.ids.length := by
  have := hi.bound
  rw [List.length_drop]
  omega

/-- A stream after a pass of its feeder that found a channel. -/
theorem StreamInv.found {k : TaskId} {cursor₀ : Nat} {seen : Option Nat}
    {id : RTCDataChannelId} {label : String}
    (hi : c.StreamInv k l cursor₀ yielded (.looping seen))
    (hscan : scanIncoming l (c.shared.channels.drop cursor₀) cursor₀ =
      (some (id, label), cursor)) :
    c.StreamInv k l cursor yielded (.writing ⟨.detached, id, label⟩) := by
  have hlen := hi.drop_length
  obtain ⟨skipped, rest, hmap, rfl, hskip, hid⟩ := scanIncoming_some hscan
  rw [ids_drop] at hmap
  obtain ⟨htake, hdrop⟩ := take_drop_add hmap
  refine ⟨?_, hi.created, ?_, ?_⟩
  · rw [hmap, List.length_append] at hlen
    omega
  · intro hf
    obtain ⟨hgiven, hrest, -⟩ := hi.first hf
    -- the skipped ids were created locally, and the one found was not
    have hpass : c.remote (skipped ++ [id]) = [id] := by
      have hloc : ∀ x ∈ skipped, x ∈ c.created := fun x hx => hi.created x (hskip x hx).symm
      have hrem : id ∉ c.created :=
        (hrest rfl id (by rw [hmap]; simp)).1 hid
      rw [remote, List.filter_append, List.filter_eq_nil_iff.2 (by simpa using hloc)]
      simp [hrem]
    refine ⟨?_, ?_, nofun⟩
    · rw [htake, remote, List.filter_append]
      show _ = c.remote (c.ids.take cursor₀) ++ c.remote (skipped ++ [id])
      rw [← hgiven, hpass]
      simp [Guest.given, Feed.inHand]
    · intro _ x hx
      rw [hdrop] at hx
      exact hrest rfl x (by rw [hmap]; exact List.mem_append_right _ hx)
  · intro hf
    obtain ⟨-, hrest, -⟩ := hi.later hf
    exact absurd (hrest rfl id (by rw [hmap]; simp)) hid

/-- A stream after a pass of its feeder that found none: it ends with a dead connection, or it
waits. -/
theorem StreamInv.skipped {k : TaskId} {cursor₀ : Nat} {seen : Option Nat}
    (hi : c.StreamInv k l cursor₀ yielded (.looping seen))
    (hnone : (scanIncoming l (c.shared.channels.drop cursor₀) cursor₀).1 = none)
    (hcursor : cursor = (scanIncoming l (c.shared.channels.drop cursor₀) cursor₀).2)
    (hfeed : (feed = .done ∧ c.shared.dead = true) ∨
      (∃ v, feed = .looping (some v)) ∧ c.shared.dead = false) :
    c.StreamInv k l cursor yielded feed := by
  have hlen := hi.drop_length
  obtain ⟨hskip, hcur⟩ := scanIncoming_skips hnone
  rw [ids_drop] at hskip
  obtain rfl : cursor = c.ids.length := by
    rw [hcursor, hcur, ← hlen, ← ids_drop, List.length_map]
  have hg : Guest.given yielded feed = Guest.given yielded (.looping seen) := by
    rcases hfeed with ⟨rfl, -⟩ | ⟨⟨v, rfl⟩, -⟩ <;> rfl
  refine ⟨Nat.le_refl _, hi.created, ?_, ?_⟩
  · intro hf
    obtain ⟨hgiven, -, -⟩ := hi.first hf
    refine ⟨?_, ?_, ?_⟩
    · have hall : c.remote (c.ids.drop cursor₀) = [] := by
        rw [remote, List.filter_eq_nil_iff]
        intro x hx
        simpa using hi.created x (hskip x hx).symm
      rw [hg, hgiven, List.take_length]
      conv_rhs => rw [← List.take_append_drop cursor₀ c.ids]
      rw [remote, remote, List.filter_append]
      show _ = _ ++ c.remote (c.ids.drop cursor₀)
      rw [hall, List.append_nil]
    · intro _ x hx
      rw [List.drop_length] at hx
      cases hx
    · intro hd
      rcases hfeed with ⟨-, hdead⟩ | ⟨⟨v, rfl⟩, -⟩
      · exact hdead
      · cases hd
  · intro hf
    obtain ⟨hgiven, -, hend⟩ := hi.later hf
    refine ⟨hg.trans hgiven, ?_, ?_⟩
    · intro _ x hx
      rw [List.drop_length] at hx
      cases hx
    · rcases hfeed with ⟨rfl, -⟩ | ⟨⟨v, rfl⟩, -⟩
      · exact .inl rfl
      · exact hend.imp_left nofun

theorem Start.incomingInv (h : c.Start) : c.IncomingInv := by
  have hnil : c.tasks = [] ∧ c.localChannel = none := by
    rcases h with rfl | rfl <;> exact ⟨rfl, rfl⟩
  refine ⟨h.awaits, ?_, ?_⟩
  · intro id hl
    rw [hnil.2] at hl; cases hl
  · intro k _ _ _ _ hk
    rw [hnil.1] at hk; cases hk

/-- The stream that a call takes. -/
theorem StreamInv.taken (hi : c.IncomingInv) (hC : c.IncomingOnce .incomingDataChannels)
    {k : TaskId}
    (hk : c.First k ↔ ∀ k, ¬ c.Incoming k) :
    c.StreamInv k c.localChannel 0 [] (.looping none) := by
  refine ⟨Nat.zero_le _, hi.localChannel, ?_, ?_⟩
  · intro hf
    refine ⟨by simp [Guest.given, Feed.inHand, remote], fun _ id hid => ?_, nofun⟩
    refine ⟨fun hne hcr => hne (hC.1 (hk.1 hf) id hid hcr).symm, ?_⟩
    intro hcr he
    exact hcr (hi.localChannel id he.symm)
  · intro hf
    have hex : ∃ k, c.Incoming k := by
      by_contra hno
      exact hf (hk.2 fun k hk => hno ⟨k, hk⟩)
    obtain ⟨hdead, hall⟩ := hC.2 hex
    exact ⟨rfl, fun _ id hid => (hall id hid).symm, .inr hdead⟩

/-- Every stream is before the next task. -/
theorem first_next : c.First c.tasks.length ↔ ∀ k, ¬ c.Incoming k := by
  refine ⟨?_, fun h k _ => h k⟩
  intro h k hk
  obtain ⟨l, cursor, yielded, feed, ht⟩ := hk
  exact h k (List.getElem?_eq_some_iff.1 ht).1 ⟨l, cursor, yielded, feed, ht⟩

/-- A step that takes and drains as it should keeps the streams in order. -/
theorem IncomingInv.step (hi : c.IncomingInv) (hC : c.IncomingOnce a)
    (h : c.step limit a = some c') : c'.IncomingInv := by
  obtain ⟨new, hg, hnew⟩ := step_grown h
  have hlt : ∀ {k : TaskId} {t}, c.tasks[k]? = some t → k ≤ c.tasks.length := fun hk =>
    Nat.le_of_lt (List.getElem?_eq_some_iff.1 hk).1
  -- the streams from before the step, which skip what they have to of the new channels
  have hkeep : ∀ (k : TaskId) l cursor yielded feed,
      c.tasks[k]? = some (.pumpIncoming l cursor yielded feed) →
      c'.StreamInv k l cursor yielded feed := by
    intro k l cursor yielded feed hk
    refine (hi.streams k l cursor yielded feed hk).grow hg (first_step h (hlt hk)) ?_
    intro hl id hid
    obtain ⟨⟨now, rfl⟩, hn, label, hopen⟩ := hnew id hid
    exact hC id label hopen hn k l cursor yielded feed hk hl
  refine ⟨hi.awaits.step h, ?_, ?_⟩
  · intro id hl
    rcases step_created h with ⟨hcr, hloc⟩ | ⟨id', -, hcr, hloc, -⟩
    · rw [hcr]
      exact hi.localChannel id (hloc ▸ hl)
    · rw [hloc] at hl
      cases hl
      rw [hcr]
      exact List.mem_append_right _ (List.mem_singleton_self _)
  · intro k l cursor yielded feed hk
    cases step_task h hk with
    | kept hk | other _ _ _ _ _ hk => exact hkeep k l cursor yielded feed hk
    | spawned hlen ht =>
      obtain ⟨rfl, rfl, rfl, rfl, rfl⟩ := ht
      subst hlen
      refine (StreamInv.taken hi hC first_next).grow hg (first_step h (Nat.le_refl _)) ?_
      intro _ id hid
      obtain ⟨⟨now, ha⟩, -⟩ := hnew id hid
      cases ha
    | polled t now answer p hk hp ht hl =>
      obtain ⟨cursor₀, seen, rfl, hscan⟩ := Task.poll_incoming hp ht
      have hsh := Task.poll_scan hp ht
      have hs := hkeep k l cursor₀ yielded _ hk
      have hids : c'.shared.channels = c.shared.channels ∧ c'.shared.dead = c.shared.dead := by
        rw [shared, hl]
        exact ⟨hsh.1, hsh.2⟩
      rw [← hids.1, ← hids.2] at hscan
      rcases hscan with ⟨id, label, rfl, hfound⟩ | ⟨hnone, hcur, hfeed | ⟨hfeed, hlive⟩⟩
      · exact hs.found hfound
      · exact hs.skipped hnone hcur (.inl hfeed)
      · exact hs.skipped hnone hcur (.inr ⟨⟨_, hfeed⟩, hlive⟩)
    | advanced t io hk hadv =>
      obtain ⟨yielded', handle, rfl, hgiv, hnd⟩ := Task.advance_incoming hadv rfl
      have hs := hkeep k l cursor yielded' _ hk
      refine ⟨hs.bound, hs.created, ?_, ?_⟩
      · intro hf
        obtain ⟨hgiven, hrest, -⟩ := hs.first hf
        exact ⟨hgiv.trans hgiven, fun _ => hrest rfl, fun hd => absurd hd hnd⟩
      · intro hf
        obtain ⟨hgiven, -, -⟩ := hs.later hf
        simp [Guest.given, Feed.inHand] at hgiven

/-- A scan takes the first channel that is not skipped. -/
theorem passed_of_scan {n : Nat} {id : RTCDataChannelId} {label : String}
    (h : scanIncoming l (c.shared.channels.drop cursor) cursor = (some (id, label), n)) :
    passed l (c.ids.drop cursor) = id :: passed l (c.ids.drop n) := by
  obtain ⟨skipped, rest, hmap, rfl, hskip, hid⟩ := scanIncoming_some h
  rw [ids_drop] at hmap
  have hnone : passed l skipped = [] := by
    rw [passed, List.filter_eq_nil_iff]
    intro x hx
    simpa using hskip x hx
  have hone : passed l [id] = [id] := by simp [passed, hid]
  rw [(take_drop_add hmap).2, hmap, passed, List.filter_append, List.filter_append]
  show (passed l skipped ++ passed l [id]) ++ passed l rest = _
  rw [hnone, hone]
  rfl

/-- A scan that finds nothing had nothing left. -/
theorem passed_of_scan_none
    (h : (scanIncoming l (c.shared.channels.drop cursor) cursor).1 = none) :
    passed l (c.ids.drop cursor) = [] := by
  obtain ⟨hskip, -⟩ := scanIncoming_skips h
  rw [ids_drop] at hskip
  rw [passed, List.filter_eq_nil_iff]
  intro id hid
  simpa using hskip id hid

/-- A feeder in its loop can be polled, unless it has nothing left on a live connection. -/
theorem Awaits.looping (h : c.Awaits) {k : TaskId} {seen : Option Nat}
    (hk : c.tasks[k]? = some (.pumpIncoming l cursor yielded (.looping seen)))
    (hleft : passed l (c.ids.drop cursor) ≠ [] ∨ c.shared.dead = true) :
    c.shared.watch.ready seen = true := by
  cases seen with
  | none => rfl
  | some v =>
    by_cases hv : v = c.shared.watch.version
    · obtain ⟨hscan, hlive⟩ := (h _ (List.mem_of_getElem? hk) v rfl).2 hv
      rcases hleft with hleft | hdead
      · exact absurd (passed_of_scan_none hscan) hleft
      · rw [hlive] at hdead
        cases hdead
    · simpa [StateWatch.ready] using hv

/-- A poll of a feeder in its loop takes the first channel that is left. -/
theorem poll_takes {seen : Option Nat} {id : RTCDataChannelId} {rest : List RTCDataChannelId}
    (hready : c.shared.watch.ready seen = true)
    (hleft : passed l (c.ids.drop cursor) = id :: rest) (k : TaskId) (now : Instant)
    (answer : Except String Unit) :
    ∃ n label, passed l (c.ids.drop n) = rest ∧
      Task.poll c.shared k now answer (.pumpIncoming l cursor yielded (.looping seen)) =
        some ⟨.pumpIncoming l n yielded (.writing ⟨.detached, id, label⟩), c.shared, [], 0⟩ := by
  rcases hscan : scanIncoming l (c.shared.channels.drop cursor) cursor with ⟨found, n⟩
  cases found with
  | none =>
    rw [passed_of_scan_none (by rw [hscan])] at hleft
    cases hleft
  | some found =>
    obtain ⟨id', label⟩ := found
    have hpassed := passed_of_scan hscan
    rw [hleft] at hpassed
    obtain ⟨rfl, rfl⟩ := List.cons.inj hpassed
    exact ⟨n, label, rfl, by simp only [Task.poll, if_pos hready, hscan]⟩

/-- On a dead connection with nothing left it ends. -/
theorem poll_ends {seen : Option Nat} (hready : c.shared.watch.ready seen = true)
    (hnone : passed l (c.ids.drop cursor) = []) (hdead : c.shared.dead = true) (k : TaskId)
    (now : Instant) (answer : Except String Unit) :
    ∃ n, Task.poll c.shared k now answer (.pumpIncoming l cursor yielded (.looping seen)) =
      some ⟨.pumpIncoming l n yielded .done, c.shared, [], 0⟩ := by
  rcases hscan : scanIncoming l (c.shared.channels.drop cursor) cursor with ⟨found, n⟩
  cases found with
  | some found =>
    rw [passed_of_scan hscan] at hnone
    cases hnone
  | none => exact ⟨n, by simp only [Task.poll, if_pos hready, hscan, if_pos hdead]⟩

theorem Awaits.serves (h : c.Awaits) {k : TaskId}
    (hk : c.tasks[k]? = some (.pumpIncoming l cursor yielded feed)) :
    c.Serves limit k l cursor yielded feed where
  takes seen id rest now answer hfeed hleft := by
    subst hfeed
    have hready := h.looping hk (.inl (hleft ▸ List.cons_ne_nil _ _))
    obtain ⟨n, label, hrest, hpoll⟩ := poll_takes hready hleft k now answer
    obtain ⟨c', hs, hk'⟩ : ∃ c', c.step limit (.poll k now answer) = some c' ∧ _ :=
      step_poll hk hpoll
    refine ⟨c', n, label, hs, hk', ?_⟩
    simp only [Conn.step, hk, Option.bind_some, hpoll, Option.map_some] at hs
    cases hs
    exact hrest
  ends seen now answer hfeed hnone hdead := by
    subst hfeed
    obtain ⟨n, hpoll⟩ := poll_ends (h.looping hk (.inr hdead)) hnone hdead k now answer
    obtain ⟨c', hs, hk'⟩ := step_poll hk hpoll
    exact ⟨c', n, hs, hk'⟩
  yields handle hfeed := by
    subst hfeed
    exact step_io hk rfl
  ended a c' l' cursor' yielded' hs hk' := by
    cases step_task hs hk' with
    | kept hk₀ | other _ _ _ _ _ hk₀ =>
      rw [hk] at hk₀
      cases hk₀
      exact .inl rfl
    | spawned hlen =>
      rw [hlen, List.getElem?_eq_none (Nat.le_refl _)] at hk
      cases hk
    | polled t now answer p hk₀ hp ht =>
      rw [hk] at hk₀
      cases hk₀
      obtain ⟨cursor₀, seen, he, ⟨id, label, hfeed, -⟩ | ⟨hnone, -, ⟨-, hdead⟩ | ⟨hfeed, -⟩⟩⟩ :=
        Task.poll_incoming hp ht
      · cases hfeed
      · cases he
        exact .inr ⟨passed_of_scan_none hnone, hdead⟩
      · cases hfeed
    | advanced t io hk₀ hadv =>
      obtain ⟨-, -, -, -, hdone⟩ := Task.advance_incoming hadv rfl
      exact absurd rfl hdone

/-- In every state the channels are tracked as they open. -/
theorem tracksOpens (limit : Nat) (c : Conn) : c.TracksOpens limit where
  turn now c' h := by
    obtain ⟨-, h⟩ := Option.ite_none_right_eq_some.1 h
    cases h
    show (c.shared.turn limit).channels.map Channel.id = _
    rw [turn_channels, ids_applyEvents_eq, c.shared.drain_frame.1]
    rfl
  other a c' hturn h := by
    obtain ⟨new, hg, hnew⟩ := step_grown h
    have hnil : new = [] := List.eq_nil_iff_forall_not_mem.2 fun id hid => by
      obtain ⟨⟨now, rfl⟩, -⟩ := hnew id hid
      exact hturn now rfl
    rw [hg.ids, hnil, List.append_nil]

/-- Streams in order are exact. -/
theorem IncomingInv.exact (hi : c.IncomingInv) : c.IncomingExact limit := by
  refine ⟨tracksOpens limit c, fun k l cursor yielded feed hk => ?_⟩
  have hs := hi.streams k l cursor yielded feed hk
  refine ⟨?_, ?_, hi.awaits.serves hk⟩
  · intro hf
    obtain ⟨hgiven, hrest, hend⟩ := hs.first hf
    refine ⟨hgiven, ?_, hend, ?_⟩
    · intro hl
      exact List.filter_congr fun id hid => decide_eq_decide.2 (hrest hl id hid)
    · intro hfeed
      subst hfeed
      exact passed_of_scan_none (((hi.awaits _ (List.mem_of_getElem? hk)) _ rfl).2 rfl).1
  · intro hf
    obtain ⟨hgiven, hrest, hend⟩ := hs.later hf
    refine ⟨hgiven, ?_, hend⟩
    intro hl
    rw [passed, List.filter_eq_nil_iff]
    intro id hid
    simpa using hrest hl id hid

/-- A step that takes or drains otherwise leaves streams that are not exact. -/
theorem IncomingInv.not_exact (hi : c.IncomingInv) (hC : ¬ c.IncomingOnce a)
    (h : c.step limit a = some c') : ¬ c'.IncomingExact limit := by
  rintro ⟨-, hex⟩
  refine hC ?_
  cases a with
  | incomingDataChannels =>
    have hfirst : c'.First c.tasks.length ↔ ∀ k, ¬ c.Incoming k :=
      (first_step h (Nat.le_refl _)).trans first_next
    cases h
    have hk : (c.spawn (.pumpIncoming c.localChannel 0 [] (.looping none))).tasks[c.tasks.length]?
        = some (.pumpIncoming c.localChannel 0 [] (.looping none)) := by
      simp
    obtain ⟨hfst, hlat, -⟩ := hex _ _ _ _ _ hk
    refine ⟨?_, ?_⟩
    · intro hno id hid hcr
      have hrest : passed c.localChannel (c.ids.drop 0) = c.remote (c.ids.drop 0) :=
        (hfst (hfirst.2 hno)).rest rfl
      refine eq_of_not_mem_passed (show id ∈ c.ids.drop 0 from hid) fun hm => ?_
      rw [hrest] at hm
      exact (mem_remote.1 hm).2 hcr
    · intro hsome
      obtain ⟨k, hk⟩ := hsome
      have hl := hlat fun hf => hfirst.1 hf k hk
      refine ⟨hl.ends.resolve_left nofun, ?_⟩
      intro id hid
      have hnil : passed c.localChannel (c.ids.drop 0) = [] := hl.rest rfl
      refine eq_of_not_mem_passed (show id ∈ c.ids.drop 0 from hid) ?_
      rw [hnil]
      exact List.not_mem_nil
  | turn now =>
    intro id label hopen hn k l cursor yielded feed hk hl
    have hfirst := first_step h (Nat.le_of_lt (List.getElem?_eq_some_iff.1 hk).1)
    have hs := hi.streams k l cursor yielded feed hk
    obtain ⟨new, hg, -⟩ := step_grown h
    simp only [Conn.step] at h
    split at h
    · cases h
      obtain ⟨hfst, hlat, -⟩ := hex k l cursor yielded feed hk
      -- the opened channel is after the stream's cursor
      have hmem : id ∈ (c.turn limit now).ids.drop cursor := by
        have hid : id ∈ (c.turn limit now).ids := by
          show id ∈ (c.shared.turn limit).channels.map Channel.id
          rw [turn_channels]
          exact mem_ids_of_open hopen
        rw [hg.ids, List.drop_append_of_le_length hs.bound, List.mem_append]
        rw [hg.ids, List.mem_append] at hid
        exact .inr (hid.resolve_left hn)
      refine ⟨?_, ?_⟩
      · intro hf hcr
        refine eq_of_not_mem_passed hmem fun hm => ?_
        rw [(hfst (hfirst.2 hf)).rest hl] at hm
        exact (mem_remote.1 hm).2 hcr
      · intro hf
        refine eq_of_not_mem_passed hmem ?_
        rw [(hlat fun hf' => hf (hfirst.1 hf')).rest hl]
        exact List.not_mem_nil
    · cases h
  | _ => trivial

end Conn

/-- **When the incoming streams are exact.** Along every run of a connection, the first stream of
`incoming_data_channels` yields exactly the remote-opened channels in open order, and every later
one ends without yielding, exactly when every step takes streams and drains opens as `IncomingOnce`
says. -/
theorem incoming_exact_iff (limit : Nat) {c₀ c : Conn} {as : List Act} (h₀ : c₀.Start)
    (h : Runs.run (Conn.step limit) c₀ as = some c) :
    Runs.Along (Conn.step limit) (Conn.IncomingExact limit) c₀ as ↔
      Runs.Meets (Conn.step limit) Conn.IncomingOnce c₀ as :=
  Runs.along_iff_meets (I := Conn.IncomingInv) (fun _ hi => hi.exact)
    (fun _ _ _ hi hC hs => hi.step hC hs) (fun _ _ _ hi hC hs => hi.not_exact hC hs)
    h₀.incomingInv h

/-- One local channel, remembered when the stream is taken, and one remote channel. -/
theorem incoming_exact_iff_of_one_local :
    Runs.Along (Conn.step 8) (Conn.IncomingExact 8) .bound
      [.createDataChannel "a" (.ok 0), .incomingDataChannels,
        .core [.onDataChannel (.onOpen 0), .onDataChannel (.onOpen 1)] [] [(1, "b")], .turn 0,
        .poll 0 0 (.ok ()), .io 0 .accepted] := by
  refine (incoming_exact_iff 8 (.inl rfl) rfl).2 ?_
  refine (Runs.meets_cons rfl).2 ⟨trivial, (Runs.meets_cons rfl).2 ⟨?_, ?_⟩⟩
  · refine ⟨fun _ => by decide, fun ⟨k, l, cursor, yielded, feed, hk⟩ => ?_⟩
    cases hk
  refine (Runs.meets_cons rfl).2 ⟨trivial, (Runs.meets_cons rfl).2 ⟨?_, ?_⟩⟩
  · intro id label hopen _ k l cursor yielded feed hk _
    have hopen' : PeerEvent.channelOpen id label ∈
        [PeerEvent.channelOpen 0 "a", PeerEvent.channelOpen 1 "b"] := hopen
    cases k with
    | succ k => cases hk
    | zero =>
      cases hk
      refine ⟨?_, fun hf => absurd (fun k hlt => absurd hlt (Nat.not_lt_zero k)) hf⟩
      intro _ hcr
      have hid : id ∈ [0] := hcr
      rw [List.mem_singleton.1 hid]
  iterate 2 refine (Runs.meets_cons rfl).2 ⟨trivial, ?_⟩
  trivial

/-- A second stream replays the channel that the first one yielded, and a channel created after the
stream was taken is yielded by it. -/
theorem incoming_replayed :
    (∃ c, Runs.run (Conn.step 8) .bound
        [.incomingDataChannels, .core [.onDataChannel (.onOpen 1)] [] [(1, "b")], .turn 0,
          .poll 0 0 (.ok ()), .io 0 .accepted, .incomingDataChannels, .poll 1 0 (.ok ()),
          .io 1 .accepted] = some c ∧
      c.tasks[0]? = some (.pumpIncoming none 1 [⟨.detached, 1, "b"⟩] (.looping none)) ∧
      c.tasks[1]? = some (.pumpIncoming none 1 [⟨.detached, 1, "b"⟩] (.looping none)) ∧
      ¬ c.IncomingExact 8) ∧
    ∃ c, Runs.run (Conn.step 8) .bound
        [.incomingDataChannels, .createDataChannel "a" (.ok 0),
          .core [.onDataChannel (.onOpen 0)] [] [], .turn 0, .poll 0 0 (.ok ()),
          .io 0 .accepted] = some c ∧
      c.created = [0] ∧
      c.tasks[0]? = some (.pumpIncoming none 1 [⟨.detached, 0, "a"⟩] (.looping none)) ∧
      ¬ c.IncomingExact 8 := by
  refine ⟨⟨_, rfl, rfl, rfl, ?_⟩, ⟨_, rfl, rfl, rfl, ?_⟩⟩
  · intro hex
    have hsecond := (hex.2 1 _ _ _ _ rfl).2.1 fun hf => hf 0 Nat.zero_lt_one ⟨_, _, _, _, rfl⟩
    exact absurd hsecond.given (List.cons_ne_nil _ _)
  · intro hex
    have hfirst := (hex.2 0 _ _ _ _ rfl).1 fun k hlt => absurd hlt (Nat.not_lt_zero k)
    exact absurd hfirst.given (List.cons_ne_nil _ _)

end WebrtcDatachannels.Guest
