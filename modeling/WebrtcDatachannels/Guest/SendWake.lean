import WebrtcDatachannels.Guest.Flush
import WebrtcDatachannels.Guest.Incoming

/-!
# Waking the pump for a send

A send that the core accepts puts a token on the channel that its handle's `waker` sends on, and the
parked pump selects on the channel of the connection. `create_data_channel` gives a handle the
connection's waker; `pump_incoming` gives each handle a sender of its own whose receiver is gone, so
a send on an adopted handle wakes nobody, and its message waits for the tick or an inbound datagram.
Every other accepted send leaves a token that the parked pump finds (`Waking.send_wakes_iff`).
-/

namespace WebrtcDatachannels.Guest

/-! ## Handles -/

/-- The handle that a task sends on. -/
def Task.sender : Task → Option DataChannel
  | .send h _ _ | .sendViaStream h _ _ => some h
  | _ => none

/-- The handle of a task that is about to hand a message to the core. -/
def Task.handing : Task → Option DataChannel
  | .send h _ (.pending _) | .sendViaStream h _ (.opening _ _ _) => some h
  | _ => none

/-- The handle on which a poll of the task hands a message to the core with success. -/
def Task.accepts (s : Shared) (answer : Except String Unit) : Task → Option DataChannel
  | .send h message (.pending _) | .sendViaStream h _ (.opening _ message _) =>
    if (whenOpen s h.id (handOver h.id message answer)).1.succeeded then some h else none
  | _ => none

/-- The tokens that go with an accepted message. -/
def acceptedTokens (accepted : Option DataChannel) : Nat :=
  (accepted.map (·.waker.tokens)).getD 0

section
variable {s : Shared} {t t' : Task} {k : TaskId} {now : Instant} {answer : Except String Unit}
  {p : Polled} {h : DataChannel}

/-- A pass of `when_open` succeeds exactly on an open channel whose message the core takes. -/
theorem whenOpen_succeeded_iff (s : Shared) (id : RTCDataChannelId) (message : Message)
    (answer : Except String Unit) :
    (whenOpen s id (handOver id message answer)).1.succeeded = true ↔
      channelState s id = .open ∧ answer = .ok () := by
  unfold whenOpen
  split
  · next ho =>
    cases answer with
    | ok u => exact ⟨fun _ => ⟨ho, rfl⟩, fun _ => rfl⟩
    | error e => exact ⟨nofun, fun h => nomatch h.2⟩
  · next hc => exact ⟨nofun, fun h => nomatch hc.symm.trans h.1⟩
  · next hc => exact ⟨nofun, fun h => nomatch hc.symm.trans h.1⟩

/-- A message is accepted on the handle of a task that hands it over, on an open channel, when the
core takes it. -/
theorem Task.accepts_iff :
    t.accepts s answer = some h ↔
      t.handing = some h ∧ channelState s h.id = .open ∧ answer = .ok () := by
  unfold accepts handing
  split
  · next h₀ message seen =>
    rw [Option.ite_none_right_eq_some, whenOpen_succeeded_iff]
    constructor
    · rintro ⟨hs, he⟩; cases he; exact ⟨rfl, hs⟩
    · rintro ⟨he, hs⟩; cases he; exact ⟨hs, rfl⟩
  · next h₀ sent status message seen =>
    rw [Option.ite_none_right_eq_some, whenOpen_succeeded_iff]
    constructor
    · rintro ⟨hs, he⟩; cases he; exact ⟨rfl, hs⟩
    · rintro ⟨he, hs⟩; cases he; exact ⟨hs, rfl⟩
  · simp

/-- A task that hands a message over is a send on that handle. -/
theorem Task.handing_sender (ht : t.handing = some h) : t.sender = some h := by
  unfold handing at ht
  split at ht
  · exact ht
  · exact ht
  · cases ht

/-- A poll puts out the tokens of what it has accepted, and keeps the task's handle. -/
theorem Task.poll_tokens (hp : t.poll s k now answer = some p) :
    p.tokens = acceptedTokens (t.accepts s answer) ∧ p.task.sender = t.sender := by
  unfold Task.poll at hp
  split at hp
  · split at hp
    · cases hp
      refine ⟨?_, rfl⟩
      simp only [accepts]
      split <;> rfl
    · cases hp
  · split at hp
    · cases hp
      refine ⟨?_, rfl⟩
      simp only [accepts]
      split <;> rfl
    · cases hp
  · split at hp
    · cases hp; exact ⟨rfl, rfl⟩
    · cases hp
  · split at hp
    · simp only at hp
      split at hp <;> cases hp <;> exact ⟨rfl, rfl⟩
    · cases hp
  · split at hp
    · simp only at hp
      split at hp
      · cases hp; exact ⟨rfl, rfl⟩
      · split at hp <;> cases hp <;> exact ⟨rfl, rfl⟩
    · cases hp
  · split at hp
    · cases hp; exact ⟨rfl, rfl⟩
    · cases hp
  · cases hp

/-- A stream operation keeps the task's handle. -/
theorem Task.advance_sender {io : Io} (ha : t.advance io = some t') : t'.sender = t.sender := by
  unfold Task.advance at ha
  split at ha
  · cases ha; rfl
  · cases ha; rfl
  · split at ha
    · split at ha <;> cases ha <;> rfl
    · cases ha
  · cases ha; rfl
  · cases ha; rfl
  · cases ha; rfl
  · cases ha; rfl
  · cases ha; rfl
  · cases ha

end

namespace Conn

variable {limit : Nat} {c c' : Conn} {a : Act} {h : DataChannel}

/-- An incoming stream has yielded the handle. -/
def Adopted (c : Conn) (h : DataChannel) : Prop :=
  ∃ (k : TaskId) (l : Option RTCDataChannelId) (cursor : Nat) (yielded : List DataChannel)
    (feed : Feed DataChannel),
    c.tasks[k]? = some (.pumpIncoming l cursor yielded feed) ∧ h ∈ yielded

/-- An adopted handle stays adopted. -/
theorem Adopted.step (hs : c.step limit a = some c') (ha : c.Adopted h) : c'.Adopted h := by
  obtain ⟨k, l, cursor, yielded, feed, hk, hmem⟩ := ha
  have hlt : k < c.tasks.length := (List.getElem?_eq_some_iff.1 hk).1
  cases step_tasks hs with
  | same he => exact ⟨k, l, cursor, yielded, feed, he ▸ hk, hmem⟩
  | spawn t _ he =>
    exact ⟨k, l, cursor, yielded, feed, by rw [he, List.getElem?_append_left hlt, hk], hmem⟩
  | poll k' t now answer p hk' hp he =>
    by_cases hkk : k' = k
    · subst hkk
      rw [hk] at hk'
      cases hk'
      obtain ⟨cursor', feed', hp'⟩ := Task.poll_pumpIncoming hp
      exact ⟨k', l, cursor', yielded, feed', by rw [he, List.getElem?_set_self hlt, hp'], hmem⟩
    · exact ⟨k, l, cursor, yielded, feed, by rw [he, List.getElem?_set_ne hkk, hk], hmem⟩
  | io k' t t' io hk' hadv he =>
    by_cases hkk : k' = k
    · subst hkk
      rw [hk] at hk'
      cases hk'
      obtain ⟨yielded', feed', rfl⟩ := Task.advance_pumpIncoming hadv
      obtain ⟨yielded'', hd, ht, hy, -⟩ := Task.advance_yields hadv
      cases ht
      refine ⟨k', l, cursor, yielded', feed', by rw [he, List.getElem?_set_self hlt], ?_⟩
      cases hadv' : io with
      | accepted => subst hadv'; cases hadv; exact List.mem_append_left _ hmem
      | refused => subst hadv'; cases hadv; exact hmem
      | element | payload | drained => subst hadv'; cases hadv
    · exact ⟨k, l, cursor, yielded, feed, by rw [he, List.getElem?_set_ne hkk, hk], hmem⟩

/-- A step keeps the connection's waker, and the handles it adds have that one or are adopted. -/
theorem step_handles (hs : c.step limit a = some c') :
    c'.waker = c.waker ∧ ∃ new, c'.handles = c.handles ++ new ∧
      ∀ h ∈ new, h.waker = c.waker ∨ c'.Adopted h := by
  have hsame : c'.waker = c.waker → c'.handles = c.handles →
      c'.waker = c.waker ∧ ∃ new, c'.handles = c.handles ++ new ∧
        ∀ h ∈ new, h.waker = c.waker ∨ c'.Adopted h :=
    fun hw hh => ⟨hw, [], by rw [hh, List.append_nil], nofun⟩
  cases a with
  | core | close | incomingDataChannels | waitConnected => cases hs; exact hsame rfl rfl
  | turn | finish | send | sendViaStream | receive =>
    simp only [Conn.step] at hs
    split at hs
    · cases hs; exact hsame rfl rfl
    · cases hs
  | receiveViaStream hd =>
    simp only [Conn.step] at hs
    split at hs
    · cases hs
      unfold Conn.receiveViaStream
      dsimp only
      split <;> exact ⟨rfl, [], (List.append_nil _).symm, nofun⟩
    · cases hs
  | createDataChannel label answer =>
    cases answer with
    | error e => cases hs; exact hsame rfl rfl
    | ok id =>
      simp only [Conn.step, Conn.createDataChannel] at hs
      split at hs
      · cases hs
        refine ⟨rfl, [⟨c.waker, id, label⟩], rfl, fun h hh => .inl ?_⟩
        rw [List.mem_singleton.1 hh]
      · cases hs
  | poll k now answer =>
    simp only [Conn.step, Option.map_eq_some_iff] at hs
    obtain ⟨p, -, rfl⟩ := hs
    exact hsame rfl rfl
  | io k io =>
    simp only [Conn.step, Option.bind_eq_some_iff, Option.map_eq_some_iff] at hs
    obtain ⟨t, hk, t', hadv, rfl⟩ := hs
    refine ⟨rfl, t.adopted io, rfl, fun h hh => .inr ?_⟩
    unfold Task.adopted at hh
    split at hh
    · cases hadv
      refine ⟨k, _, _, _, _, List.getElem?_set_self (List.getElem?_eq_some_iff.1 hk).1, ?_⟩
      exact List.mem_append_right _ hh
    · cases hh

/-- Where the wakers of a connection's handles lead. A connection without a pump is dead; incoming
streams yield handles with a waker of their own; the other handles have the connection's; and every
send is on a handle that the guest has. -/
structure Wiring (c : Conn) : Prop where
  terminal : Terminal c.shared
  waker : c.waker = .pump ∨ c.shared.dead = true
  yields : ∀ (k : TaskId) (l : Option RTCDataChannelId) (cursor : Nat) (yielded : List DataChannel)
    (feed : Feed DataChannel), c.tasks[k]? = some (.pumpIncoming l cursor yielded feed) →
    ∀ h ∈ yielded ++ feed.inHand, h.waker = .detached
  handles : ∀ h ∈ c.handles, h.waker = c.waker ∨ c.Adopted h
  senders : ∀ (k : TaskId) (t : Task), c.tasks[k]? = some t → ∀ h, t.sender = some h →
    h ∈ c.handles

theorem Start.wiring (hs : c.Start) : c.Wiring := by
  rcases hs with rfl | rfl
  · exact ⟨nofun, .inl rfl, nofun, nofun, nofun⟩
  · exact ⟨nofun, .inr rfl, nofun, nofun, nofun⟩

/-- A send is started on a handle that the guest has. -/
theorem spawned_sender {t : Task} {k : TaskId} (hs : c.step limit a = some c')
    (hk : c'.tasks[k]? = some t) (hlen : k = c.tasks.length) (ht : t.sender = some h) :
    h ∈ c.handles := by
  have hnone : c.tasks[k]? = none := by rw [hlen, List.getElem?_eq_none_iff]
  have hsame : c'.tasks = c.tasks → h ∈ c.handles := by
    intro he
    rw [he, hnone] at hk
    cases hk
  have hone : ∀ t', c'.tasks = c.tasks ++ [t'] → t = t' := by
    intro t' he
    rw [he, hlen, List.getElem?_concat_length] at hk
    exact (Option.some.inj hk).symm
  cases a with
  | core | close => cases hs; exact hsame rfl
  | turn | finish =>
    simp only [Conn.step] at hs
    split at hs
    · cases hs; exact hsame rfl
    · cases hs
  | createDataChannel label answer =>
    cases answer with
    | error e => cases hs; exact hsame rfl
    | ok id =>
      simp only [Conn.step, Conn.createDataChannel] at hs
      split at hs
      · cases hs; exact hsame rfl
      · cases hs
  | incomingDataChannels | waitConnected => cases hs; rw [hone _ rfl] at ht; cases ht
  | send h' message | sendViaStream h' =>
    simp only [Conn.step] at hs
    split at hs
    · next hmem => cases hs; rw [hone _ rfl] at ht; cases ht; exact hmem
    · cases hs
  | receive h' =>
    simp only [Conn.step] at hs
    split at hs
    · cases hs; rw [hone _ rfl] at ht; cases ht
    · cases hs
  | receiveViaStream h' =>
    simp only [Conn.step] at hs
    split at hs
    · cases hs
      cases hr : (Guest.receiveViaStream c.shared h'.id).1 with
      | error e => exact hsame (by simp [receiveViaStream, hr])
      | ok u =>
        rw [hone _ (by simp [receiveViaStream, hr]; rfl)] at ht
        cases ht
    · cases hs
  | poll k' now answer =>
    simp only [Conn.step, Option.map_eq_some_iff] at hs
    obtain ⟨p, -, rfl⟩ := hs
    rw [List.getElem?_eq_none_iff.2 (by rw [List.length_set, hlen])] at hk
    cases hk
  | io k' io =>
    simp only [Conn.step, Option.bind_eq_some_iff, Option.map_eq_some_iff] at hs
    obtain ⟨t', -, t'', -, rfl⟩ := hs
    rw [List.getElem?_eq_none_iff.2 (by rw [List.length_set, hlen])] at hk
    cases hk

/-- Every step keeps the wiring. -/
theorem Wiring.step (hw : c.Wiring) (hs : c.step limit a = some c') : c'.Wiring := by
  have he := step_effect hs
  obtain ⟨hwaker, new, hnew, hgood⟩ := step_handles hs
  have hsub : ∀ h ∈ c.handles, h ∈ c'.handles := by
    intro h hh
    rw [hnew]
    exact List.mem_append_left _ hh
  refine ⟨he.terminal hw.terminal, ?_, ?_, ?_, ?_⟩
  · rw [hwaker]
    exact hw.waker.imp_right he.flagsKept.dead
  · intro k l cursor yielded feed hk
    cases step_task hs hk with
    | kept hk | other _ _ _ _ _ hk => exact hw.yields k l cursor yielded feed hk
    | spawned _ ht =>
      obtain ⟨-, -, rfl, rfl, -⟩ := ht
      nofun
    | polled t now answer p hk hp ht =>
      obtain ⟨cursor₀, seen, rfl, hfeed⟩ := Task.poll_incoming hp ht
      have hold := hw.yields k l cursor₀ yielded _ hk
      rw [Feed.inHand, List.append_nil] at hold
      rcases hfeed with ⟨id, label, rfl, -⟩ | ⟨-, -, ⟨rfl, -⟩ | ⟨rfl, -⟩⟩
      · exact List.forall_mem_append.2 ⟨hold, by simp [Feed.inHand]⟩
      · rwa [Feed.inHand, List.append_nil]
      · rwa [Feed.inHand, List.append_nil]
    | advanced t io hk hadv =>
      obtain ⟨yielded', hd, rfl, hy, -⟩ := Task.advance_yields hadv
      rw [hy]
      exact hw.yields k l cursor yielded' _ hk
  · rw [hnew, hwaker]
    intro h hh
    rcases List.mem_append.1 hh with hh | hh
    · exact (hw.handles h hh).imp_right fun ha => ha.step hs
    · exact hgood h hh
  · intro k t hk h ht
    cases step_task hs hk with
    | kept hk | other _ _ _ _ _ hk => exact hsub h (hw.senders k t hk h ht)
    | spawned hlen => exact hsub h (spawned_sender hs hk hlen ht)
    | polled t₀ now answer p hk₀ hp hpt =>
      refine hsub h (hw.senders k t₀ hk₀ h ?_)
      rw [← (Task.poll_tokens hp).2, hpt, ht]
    | advanced t₀ io hk₀ hadv =>
      refine hsub h (hw.senders k t₀ hk₀ h ?_)
      rw [← Task.advance_sender hadv, ht]

theorem Wiring.run {as : List Act} (hw : c.Wiring)
    (hr : Runs.run (Conn.step limit) c as = some c') : c'.Wiring :=
  Runs.invariant (I := Wiring) (fun _ _ _ hi hs => hi.step hs) hw hr

/-- The tokens of an accepted message: one if its handle was not adopted, none if it was. -/
theorem Wiring.tokens {k : TaskId} {t : Task} {answer : Except String Unit} (hw : c.Wiring)
    (hk : c.tasks[k]? = some t) (ha : t.accepts c.shared answer = some h) :
    (¬ c.Adopted h → h.waker.tokens = 1) ∧ (c.Adopted h → h.waker.tokens = 0) := by
  obtain ⟨hhand, hopen, -⟩ := Task.accepts_iff.1 ha
  have hlive : c.waker = .pump := by
    rcases hw.waker with hp | hd
    · exact hp
    · rw [hw.terminal.channelState hd] at hopen
      cases hopen
  constructor
  · intro hna
    rcases hw.handles h (hw.senders k t hk h (Task.handing_sender hhand)) with he | had
    · rw [he, hlive]; rfl
    · exact absurd had hna
  · rintro ⟨k', l, cursor, yielded, feed, hk', hmem⟩
    rw [hw.yields k' l cursor yielded feed hk' h (List.mem_append_left _ hmem)]
    rfl

/-- The handle on which a step has a message accepted. -/
def accepts (c : Conn) : Act → Option DataChannel
  | .poll k _ answer => (c.tasks[k]?).bind (·.accepts c.shared answer)
  | _ => none

/-- A step that has a message accepted puts out the tokens of the handle's waker. -/
theorem step_tokens (hs : c.step limit a = some c') (ha : c.accepts a = some h) :
    c'.tokens = c.tokens + h.waker.tokens := by
  unfold accepts at ha
  split at ha
  · next k now answer =>
    obtain ⟨t, hk, hacc⟩ := Option.bind_eq_some_iff.1 ha
    simp only [Conn.step, hk, Option.bind_some, Option.map_eq_some_iff] at hs
    obtain ⟨p, hp, rfl⟩ := hs
    simp only [(Task.poll_tokens hp).1, hacc]
    rfl
  · cases ha

/-- The tokens of a message that a step has accepted. -/
theorem Wiring.accepts_tokens (hw : c.Wiring) (ha : c.accepts a = some h) :
    (¬ c.Adopted h → h.waker.tokens = 1) ∧ (c.Adopted h → h.waker.tokens = 0) := by
  unfold accepts at ha
  split at ha
  · obtain ⟨t, hk, hacc⟩ := Option.bind_eq_some_iff.1 ha
    exact hw.tokens hk hacc
  · cases ha

end Conn

/-! ## The wake channel -/

variable {Datagram : Type}

/-- A flush ends in the next step of a pump that stands here. -/
def Suspended.flushes (first second : Option Datagram) : Suspended Datagram → Bool
  | .second _ => second.isNone
  | _ => first.isNone

/-- A driver with its wake channel: the messages that the core accepted, the tokens their sends put
on the channel, the tokens in the receiver that the pump selects on, and the messages accepted since
a flush of the pump last ended. -/
structure Waking (Datagram : Type) where
  driver : Driver Datagram
  accepted : Nat
  pushed : Nat
  queued : Nat
  unflushed : Nat

/-- The pump goes on, from its select by an inbound datagram or the tick; it goes on by the wake
branch; a signaling call nudges it; or anything else happens. -/
inductive WakingAct (Datagram : Type) where
  | pump (now : Instant) (first second : Option Datagram)
  | wake (now : Instant) (first second : Option Datagram)
  | nudge
  | act (a : Act)

namespace Waking

/-- A connection that was bound, with its pump not polled yet. -/
def bound : Waking Datagram :=
  { driver := { conn := .bound, pump := .start, log := [] }, accepted := 0, pushed := 0,
    queued := 0, unflushed := 0 }

/-- A driver with an empty wake channel. -/
def Start (v : Waking Datagram) : Prop :=
  v.driver.Start ∧ v.accepted = 0 ∧ v.pushed = 0 ∧ v.queued = 0 ∧ v.unflushed = 0

/-- The pump goes on to its next suspension. -/
def goOn (limit : Nat) (v : Waking Datagram) (now : Instant) (first second : Option Datagram) :
    Option (Waking Datagram) :=
  (v.driver.step limit (.pump now first second)).map fun d =>
    { v with
      driver := d
      unflushed := if v.driver.pump.flushes first second then 0 else v.unflushed }

/-- One step. Source: the select of `Runtime::pump`, `wake_tx`. -/
def step (limit : Nat) (v : Waking Datagram) : WakingAct Datagram → Option (Waking Datagram)
  | .pump now first second => v.goOn limit now first second
  | .wake now first second =>
    match v.driver.pump with
    | .parked =>
      if 0 < v.queued then { v with queued := v.queued - 1 }.goOn limit now first second else none
    | _ => none
  | .nudge => some { v with queued := v.queued + v.driver.conn.waker.tokens }
  | .act a =>
    (v.driver.step limit (.act a)).map fun d =>
      let tokens := d.conn.tokens - v.driver.conn.tokens
      let sent := (v.driver.conn.accepts a).isSome
      { driver := d
        accepted := v.accepted + sent.toNat
        pushed := v.pushed + if sent then tokens else 0
        queued := v.queued + tokens
        unflushed := v.unflushed + sent.toNat }

/-- Every accepted message has put its token on the pump's wake channel, and a parked pump whose
core has been given a message since the last flush has its wake branch ready. -/
def Awake (v : Waking Datagram) : Prop :=
  v.pushed = v.accepted ∧ (v.driver.pump = .parked → 0 < v.unflushed → 0 < v.queued)

/-- No message is handed over, with the core taking it, on a handle that an incoming stream
yielded. -/
def Wired (v : Waking Datagram) : WakingAct Datagram → Prop
  | .act (.poll k _ (.ok _)) => ∀ t h, v.driver.conn.tasks[k]? = some t → t.handing = some h →
    channelState v.driver.conn.shared h.id = .open → ¬ v.driver.conn.Adopted h
  | _ => True

/-- What holds in every state of a run whose sends are all on handles with the connection's
waker. -/
structure Inv (v : Waking Datagram) : Prop where
  stands : v.driver.Stands
  wiring : v.driver.conn.Wiring
  pushed : v.pushed = v.accepted
  parked : v.driver.pump = .parked → v.unflushed ≤ v.queued

variable {limit : Nat} {v v' : Waking Datagram} {x : WakingAct Datagram}
  {xs : List (WakingAct Datagram)}

theorem Start.inv (h : v.Start) : v.Inv := by
  obtain ⟨hd, ha, hp, -, hu⟩ := h
  have hc : v.driver.conn.Start := hd.2.imp (·.1) (·.1)
  exact ⟨hd.stands, hc.wiring, hp.trans ha.symm, fun _ => by rw [hu]; exact Nat.zero_le _⟩

theorem Inv.awake (h : v.Inv) : v.Awake :=
  ⟨h.pushed, fun hp hu => Nat.lt_of_lt_of_le hu (h.parked hp)⟩

/-- A pump that parks has ended a flush. -/
theorem parks {d d' : Driver Datagram} {now : Instant} {first second : Option Datagram}
    (h : d.step limit (.pump now first second) = some d') (hp : d'.pump = .parked) :
    d.pump.flushes first second = true := by
  simp only [Driver.step] at h
  split at h
  · next he => cases h; rw [he]; cases first with
    | none => rfl
    | some x => cases hp
  · next he => cases h; rw [he]; cases first with
    | none => rfl
    | some x => cases hp
  · next he => cases h; rw [he]; cases first with
    | none => rfl
    | some x => cases hp
  · next he => cases h; rw [he]; cases second with
    | none => rfl
    | some x => cases hp
  · cases h

/-- A step of the pump leaves nothing unflushed if it parks. -/
theorem Inv.goOn {now : Instant} {first second : Option Datagram} (hst : v.driver.Stands)
    (hw : v.driver.conn.Wiring) (hp : v.pushed = v.accepted)
    (h : v.goOn limit now first second = some v') : v'.Inv := by
  obtain ⟨d, hd, rfl⟩ := Option.map_eq_some_iff.1 h
  obtain ⟨⟨as, hrun⟩, hst'⟩ := Driver.step_conn hst hd
  refine ⟨hst', hw.run hrun, hp, fun hpark => ?_⟩
  simp [parks hd hpark]

/-- The step of a run that is not the pump's. -/
theorem step_act {a : Act} (h : v.step limit (.act a) = some v') :
    ∃ c, v.driver.conn.step limit a = some c ∧ v'.driver.conn = c ∧
      v'.driver.pump = v.driver.pump := by
  obtain ⟨d, hd, rfl⟩ := Option.map_eq_some_iff.1 h
  simp only [Driver.step] at hd
  split at hd
  · cases hd
  · obtain ⟨c, hc, rfl⟩ := Option.map_eq_some_iff.1 hd
    exact ⟨c, hc, rfl, rfl⟩

/-- A message accepted in a wired step is on a handle that was not adopted. -/
theorem Wired.accepts {a : Act} {h : DataChannel} (hC : v.Wired (.act a))
    (ha : v.driver.conn.accepts a = some h) : ¬ v.driver.conn.Adopted h := by
  unfold Conn.accepts at ha
  split at ha
  · next k now answer =>
    obtain ⟨t, hk, hacc⟩ := Option.bind_eq_some_iff.1 ha
    obtain ⟨hhand, hopen, rfl⟩ := Task.accepts_iff.1 hacc
    exact hC t h hk hhand hopen
  · cases ha

/-- A step that is not wired has a message accepted on an adopted handle. -/
theorem accepts_of_not_wired (hC : ¬ v.Wired x) :
    ∃ a h, x = .act a ∧ v.driver.conn.accepts a = some h ∧ v.driver.conn.Adopted h := by
  unfold Wired at hC
  split at hC
  · next k now u =>
    simp only [not_forall, not_not] at hC
    obtain ⟨t, h, hk, hhand, hopen, had⟩ := hC
    refine ⟨_, h, rfl, ?_, had⟩
    simp only [Conn.accepts, hk, Option.bind_some]
    exact Task.accepts_iff.2 ⟨hhand, hopen, rfl⟩
  · exact absurd trivial hC

/-- Every wired step keeps the invariant. -/
theorem Inv.step (hi : v.Inv) (hC : v.Wired x) (h : v.step limit x = some v') : v'.Inv := by
  cases x with
  | pump now first second => exact .goOn hi.stands hi.wiring hi.pushed h
  | wake now first second =>
    simp only [Waking.step] at h
    split at h
    · split at h
      · exact .goOn (v := { v with queued := v.queued - 1 }) hi.stands hi.wiring hi.pushed h
      · cases h
    · cases h
  | nudge =>
    cases h
    exact ⟨hi.stands, hi.wiring, hi.pushed, fun hp => Nat.le_add_right_of_le (hi.parked hp)⟩
  | act a =>
    obtain ⟨c, hc, hconn, hpump⟩ := step_act h
    obtain ⟨d, hd, rfl⟩ := Option.map_eq_some_iff.1 h
    dsimp only at hconn hpump
    refine ⟨(Driver.step_conn hi.stands hd).2, hconn ▸ hi.wiring.step hc, ?_, fun hp => ?_⟩
    · cases ha : v.driver.conn.accepts a with
      | none => simpa using hi.pushed
      | some hd' =>
        have htok := (hi.wiring.accepts_tokens ha).1 (hC.accepts ha)
        have hgrow := Conn.step_tokens hc ha
        simp [hconn, hgrow, htok, hi.pushed]
    · have hle := hi.parked (hpump ▸ hp)
      cases ha : v.driver.conn.accepts a with
      | none => simp; omega
      | some hd' =>
        have htok := (hi.wiring.accepts_tokens ha).1 (hC.accepts ha)
        have hgrow := Conn.step_tokens hc ha
        simp only [hconn, hgrow, htok, Option.isSome_some, Bool.toNat_true]
        omega

/-- After a step that is not wired a token is missing. -/
theorem Inv.not_awake (hi : v.Inv) (hC : ¬ v.Wired x) (h : v.step limit x = some v') :
    ¬ v'.Awake := by
  obtain ⟨a, hd, rfl, ha, had⟩ := accepts_of_not_wired hC
  obtain ⟨c, hc, hconn, -⟩ := step_act h
  obtain ⟨d, -, rfl⟩ := Option.map_eq_some_iff.1 h
  have htok := (hi.wiring.accepts_tokens ha).2 had
  have hgrow := Conn.step_tokens hc ha
  rintro ⟨hpushed, -⟩
  dsimp only at hconn
  simp [hconn, hgrow, htok, ha, hi.pushed] at hpushed

/-- **A send wakes the pump unless it is on an adopted handle.** Along a run, every accepted message
has put a token on the wake channel of the connection's pump, and a parked pump has its wake branch
ready whenever the core was given a message since the last flush, exactly when the run has no
message accepted on a handle that an incoming stream yielded. -/
theorem send_wakes_iff (limit : Nat) {v v' : Waking Datagram} {xs : List (WakingAct Datagram)}
    (hs : v.Start) (h : Runs.run (Waking.step limit) v xs = some v') :
    Runs.Along (Waking.step limit) Awake v xs ↔ Runs.Meets (Waking.step limit) Wired v xs :=
  Runs.along_iff_meets (fun _ hi => hi.awake) (fun _ _ _ hi hC ha => hi.step hC ha)
    (fun _ _ _ hi hC ha => hi.not_awake hC ha) hs.inv h

/-- A send on a created channel, for which the parked pump goes on by its wake branch. -/
theorem send_wakes_iff_of_created :
    Runs.Along (Waking.step 8) Awake (bound : Waking Nat)
      [.act (.createDataChannel "a" (.ok 0)), .act (.core [.onDataChannel (.onOpen 0)] [] []),
        .pump 0 none none, .act (.send ⟨.pump, 0, "a"⟩ (.string "x")), .act (.poll 0 1 (.ok ())),
        .wake 2 (some 5) none] := by
  refine (send_wakes_iff 8 ⟨⟨rfl, .inl ⟨rfl, rfl⟩⟩, rfl, rfl, rfl, rfl⟩ rfl).2 ?_
  refine (Runs.meets_cons rfl).2 ⟨trivial, (Runs.meets_cons rfl).2 ⟨trivial, ?_⟩⟩
  refine (Runs.meets_cons rfl).2 ⟨trivial, (Runs.meets_cons rfl).2 ⟨trivial, ?_⟩⟩
  refine (Runs.meets_cons rfl).2 ⟨?_, (Runs.meets_cons rfl).2 ⟨trivial, trivial⟩⟩
  rintro t h - - - ⟨k, l, cursor, yielded, feed, hk, -⟩
  cases k with
  | zero => cases hk
  | succ k => cases hk

/-- The guest adopts a channel that the remote opened and sends on it while the pump is parked: the
core has output, and the wake branch is not ready. -/
theorem adopted_send_unheard :
    ∃ v : Waking Nat, Runs.run (Waking.step 8) bound
      [.act (.core [.onDataChannel (.onOpen 7)] [] [(7, "r")]), .pump 0 none none,
        .act .incomingDataChannels, .act (.poll 0 1 (.ok ())), .act (.io 0 .accepted),
        .act (.send ⟨.detached, 7, "r"⟩ (.string "x")), .act (.poll 1 2 (.ok ()))] = some v ∧
      v.driver.pump = .parked ∧ v.driver.conn.shared.peer.sends = [⟨7, .string "x"⟩] ∧
      v.accepted = 1 ∧ v.pushed = 0 ∧ v.unflushed = 1 ∧ v.queued = 0 ∧ ¬ v.Awake :=
  ⟨_, rfl, rfl, rfl, rfl, rfl, rfl, rfl, fun h => nomatch h.1⟩

end Waking

end WebrtcDatachannels.Guest
