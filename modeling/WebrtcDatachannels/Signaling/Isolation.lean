import WebrtcDatachannels.Lib.Entries
import WebrtcDatachannels.Signaling.Caps

/-!
# A room sees its own requests only

The store keeps all rooms in one map, and a fetch waits on a notifier that may be that of a mailbox
which is gone. `RoomState` is one room with the fetches from it, without notifiers: a fetch knows
whether the mailbox it waits for is still there. `Server.room` is what a server shows of a room, and
`Server.request` what a step is to that room, if anything: a request on it, a step of a fetch from
it, or a sweep. A run of the server shows of each room exactly the run of that room's own requests
(`room_isolated`); of the other rooms it needs no more than whether they fill the store when a
publish is to create it, and with no cap on the rooms they never do.
-/

namespace WebrtcDatachannels.Signaling

open SealedLog (Log)

/-! ## One room -/

/-- Where a fetch stands, with whether the mailbox whose notifier it holds is still there in the
place of that notifier. -/
inductive RoomStage where
  | top
  | peeked (current : Bool)
  | armed (current : Bool) (remaining : Nat) (notified : Bool)
  | parked (current : Bool) (expires : Instant) (notified : Bool)
  | returned (outcome : Fetch)
deriving DecidableEq, Repr

namespace RoomStage

/-- The mailbox that the fetch looked at is written. -/
def wake : RoomStage → RoomStage
  | .armed true remaining _ => .armed true remaining true
  | .parked true expires _ => .parked true expires true
  | stage => stage

/-- The mailbox that the fetch looked at is removed. -/
def lose : RoomStage → RoomStage
  | .peeked _ => .peeked false
  | .armed current remaining notified => .armed false remaining (notified || current)
  | .parked current expires notified => .parked false expires (notified || current)
  | stage => stage

end RoomStage

/-- A fetch from the room. -/
structure RoomFetch where
  role : Role
  seq : Nat
  deadline : Instant
  stage : RoomStage
deriving DecidableEq, Repr

/-- A room that is there. -/
structure OpenRoom where
  log : Role → Log Bytes
  lastTouched : Instant

/-- A room with the fetches from it. -/
structure RoomState where
  room : Option OpenRoom
  fetches : List RoomFetch

/-- What can happen to a room. A publish finds the store full of other rooms or not. -/
inductive RoomAct where
  | publish (full : Bool) (now : Instant) (role : Role) (blob : Bytes)
  | markDone (now : Instant) (role : Role)
  | delete
  | sweep (now : Instant)
  | fetch (now : Instant) (role : Role) (seq : Nat) (wait : Nat)
  | poll (k : Nat) (now : Instant)
deriving DecidableEq, Repr

namespace OpenRoom

/-- A mailbox of the room is written. -/
def write (r : OpenRoom) (role : Role) (q : Log Bytes) : OpenRoom :=
  { r with log := Function.update r.log role q }

/-- A fetch looks at its mailbox, and goes on at `next` when that has nothing for it. -/
def look (r : OpenRoom) (next : RoomStage) (t : RoomFetch) : RoomStage :=
  match (r.log t.role).look t.seq with
  | .item blob => .returned (.blob blob)
  | .over => .returned .done
  | _ => next

end OpenRoom

namespace RoomState

/-- A room that is not there, and no fetch. -/
def start : RoomState := { room := none, fetches := [] }

/-- The room is looked up, and created if it is not there. -/
def entry (s : RoomState) (now : Instant) : OpenRoom :=
  { log := (s.room.map (·.log)).getD fun _ => ⟨[], false⟩, lastTouched := now }

/-- A mailbox of the room is written, and its fetches are woken. -/
def write (s : RoomState) (now : Instant) (role : Role) (q : Log Bytes) : RoomState where
  room := some ((s.entry now).write role q)
  fetches := s.fetches.map fun t => if t.role = role then { t with stage := t.stage.wake } else t

/-- The room is removed, if it is there. -/
def remove (s : RoomState) : RoomState where
  room := none
  fetches := s.fetches.map fun t => { t with stage := t.stage.lose }

/-- A fetch goes on to its next lock or wait. -/
def poll (s : RoomState) (now : Instant) (t : RoomFetch) : Option (RoomFetch × Option OpenRoom) :=
  match t.stage with
  | .top =>
    some ({ t with stage := (s.entry now).look (.peeked true) t }, some (s.entry now))
  | .peeked current =>
    if t.deadline - now = 0 then some ({ t with stage := .returned .pending }, s.room)
    else some ({ t with stage := .armed current (t.deadline - now) false }, s.room)
  | .armed current remaining notified =>
    some ({ t with stage := (s.entry now).look (.parked current (now + remaining) notified) t },
      some (s.entry now))
  | .parked _ expires notified =>
    if notified then some ({ t with stage := .top }, s.room)
    else if expires ≤ now then some ({ t with stage := .returned .pending }, s.room)
    else none
  | .returned _ => none

/-- One step. -/
def step (limits : Limits) (s : RoomState) : RoomAct → Option RoomState
  | .publish full now role blob =>
    if s.room.isNone && full then some s
    else
      let q := (s.entry now).log role
      if q.shut then some { s with room := some (s.entry now) }
      else if limits.maxBlobsPerMailbox ≠ 0 ∧ limits.maxBlobsPerMailbox ≤ q.entries.length then
        some { s with room := some (s.entry now) }
      else some (s.write now role { q with entries := q.entries ++ [blob] })
  | .markDone now role => some (s.write now role { (s.entry now).log role with shut := true })
  | .delete => some s.remove
  | .sweep now =>
    if s.room.any fun r => now - r.lastTouched > limits.roomTtl then some s.remove else some s
  | .fetch now role seq wait =>
    some { s with
      fetches := s.fetches ++ [{ role, seq, deadline := now + wait, stage := .top }] }
  | .poll k now =>
    ((s.fetches[k]?).bind (s.poll now)).map fun p =>
      { room := p.2, fetches := s.fetches.set k p.1 }

end RoomState

/-! ## What a server shows of a room -/

/-- The room without its notifiers. -/
def Room.seen (r : Room) : OpenRoom where
  log role := ⟨(r.mailbox role).blobs, (r.mailbox role).done⟩
  lastTouched := r.lastTouched

/-- The mailbox is there with this notifier. -/
def Rooms.current (s : Rooms) (room : String) (role : Role) (notify : NotifyId) : Bool :=
  (s.mailbox? room role).any (·.notify = notify)

/-- A stage without its notifier. -/
def Stage.seen (current : NotifyId → Bool) : Stage → RoomStage
  | .top => .top
  | .peeked notify => .peeked (current notify)
  | .armed notify remaining notified => .armed (current notify) remaining notified
  | .parked notify expires notified => .parked (current notify) expires notified
  | .returned outcome => .returned outcome

/-- The fetch without its notifier. -/
def FetchTask.seen (rooms : Rooms) (t : FetchTask) : RoomFetch where
  role := t.role
  seq := t.seq
  deadline := t.deadline
  stage := t.stage.seen (rooms.current t.room t.role)

namespace Server

/-- What the server shows of a room. -/
def room (s : Server) (room : String) : RoomState where
  room := (s.rooms.map.lookup room).map Room.seen
  fetches := (s.fetches.filter (·.room = room)).map (·.seen s.rooms)

/-- What a step is to a room. -/
def request (room : String) (s : Server) : ServerAct → Option RoomAct
  | .publish now room' role blob =>
    if room' = room then some (.publish (s.rooms.full room) now role blob) else none
  | .markDone now room' role => if room' = room then some (.markDone now role) else none
  | .delete room' => if room' = room then some .delete else none
  | .evictExpired now => some (.sweep now)
  | .fetch now room' role seq wait => if room' = room then some (.fetch now role seq wait) else none
  | .poll k now =>
    if (s.fetches[k]?).any (·.room = room) then
      some (.poll ((s.fetches.take k).countP (·.room = room)) now)
    else none

end Server

/-! ## Notifiers are not shared -/

namespace Rooms

/-- Each notifier was created, and is that of one mailbox. -/
structure Named (s : Rooms) : Prop where
  created : ∀ {room role m}, s.mailbox? room role = some m → m.notify < s.notifies
  one : ∀ {room room' role role' m m'}, s.mailbox? room role = some m →
    s.mailbox? room' role' = some m' → m.notify = m'.notify → room = room' ∧ role = role'

/-- The mailboxes of `s'` have the notifiers that they have in `s`, or ones that are created
later. -/
structure Renews (s s' : Rooms) : Prop where
  le : s.notifies ≤ s'.notifies
  old : ∀ {room role m'}, s'.mailbox? room role = some m' →
    (∃ m, s.mailbox? room role = some m ∧ m.notify = m'.notify) ∨ s.notifies ≤ m'.notify

section
variable {s s' : Rooms} {now : Instant} {room room' : String} {role : Role}

/-- The mailboxes of an entry: those that are there, or two new ones. -/
theorem entry_notify (s : Rooms) (now : Instant) (room : String) (role : Role) :
    (∃ m, s.mailbox? room role = some m ∧
        m.notify = ((s.entry now room).1.mailbox role).notify) ∧
      (s.entry now room).2.notifies = s.notifies ∨
    s.map.lookup room = none ∧ (s.entry now room).2.notifies = s.notifies + 2 ∧
      ((s.entry now room).1.mailbox role).notify =
        match role with
        | .offerer => s.notifies
        | .answerer => s.notifies + 1 := by
  unfold entry mailbox?
  cases s.map.lookup room with
  | some r => cases role <;> exact .inl ⟨⟨_, rfl, rfl⟩, rfl⟩
  | none => cases role <;> exact .inr ⟨rfl, rfl, rfl⟩

theorem renews_entry (s : Rooms) (now : Instant) (room : String) :
    s.Renews (s.entry now room).2 := by
  constructor
  · obtain ⟨-, hn⟩ | ⟨-, hn, -⟩ := s.entry_notify now room .offerer
    · exact Nat.le_of_eq hn.symm
    · exact hn ▸ Nat.le_add_right _ _
  · intro room' role m' hm'
    rw [mailbox?_entry_eq] at hm'
    split at hm'
    · next he =>
      subst he
      cases hm'
      obtain ⟨hold, -⟩ | ⟨-, -, hn⟩ := s.entry_notify now room' role
      · exact .inl hold
      · refine .inr ?_
        rw [hn]
        cases role
        · exact Nat.le_refl _
        · exact Nat.le_succ _
    · exact .inl ⟨m', hm', rfl⟩

theorem Named.entry (h : s.Named) (now : Instant) (room : String) :
    (s.entry now room).2.Named := by
  have hnew : ∀ role, ((s.entry now room).1.mailbox role).notify <
      (s.entry now room).2.notifies := by
    intro role
    obtain ⟨⟨m, hm, hn⟩, hle⟩ | ⟨-, hle, hn⟩ := s.entry_notify now room role
    · rw [← hn, hle]
      exact h.created hm
    · rw [hn, hle]
      cases role
      · exact Nat.lt_add_of_pos_right Nat.two_pos
      · exact Nat.lt_succ_self _
  -- a mailbox of the entry shares no notifier with another room
  have hother : ∀ {role room' role' m'}, room' ≠ room → s.mailbox? room' role' = some m' →
      ((s.entry now room).1.mailbox role).notify ≠ m'.notify := by
    intro role room' role' m' hne hm' heq
    obtain ⟨⟨m, hm, hn⟩, -⟩ | ⟨-, -, hn⟩ := s.entry_notify now room role
    · exact hne (h.one hm' hm (heq.symm.trans hn.symm)).1
    · have hlt := h.created hm'
      rw [← heq, hn] at hlt
      cases role
      · exact Nat.lt_irrefl _ hlt
      · exact Nat.lt_asymm hlt (Nat.lt_succ_self _)
  constructor
  · intro room' role m hm
    rw [mailbox?_entry_eq] at hm
    split at hm
    · cases hm; exact hnew role
    · exact Nat.lt_of_lt_of_le (h.created hm) (s.renews_entry now room).le
  · intro room₁ room₂ role₁ role₂ m₁ m₂ h₁ h₂ heq
    rw [mailbox?_entry_eq] at h₁ h₂
    split at h₁
    · next he₁ =>
      subst he₁
      cases h₁
      split at h₂
      · next he₂ =>
        cases h₂
        refine ⟨he₂.symm, ?_⟩
        obtain ⟨⟨m, hm, hn⟩, -⟩ | ⟨hnone, -, hn⟩ := s.entry_notify now room₁ role₁
        · obtain ⟨⟨m', hm', hn'⟩, -⟩ | ⟨hnone, -⟩ := s.entry_notify now room₁ role₂
          · exact (h.one hm hm' (hn.trans (heq.trans hn'.symm))).2
          · simp [mailbox?, hnone] at hm
        · obtain ⟨⟨m', hm', -⟩, -⟩ | ⟨-, -, hn'⟩ := s.entry_notify now room₁ role₂
          · simp [mailbox?, hnone] at hm'
          · rw [hn, hn'] at heq
            cases role₁ <;> cases role₂ <;> simp at heq ⊢
      · next hne => exact absurd heq (hother hne h₂)
    · next hne₁ =>
      split at h₂
      · next he₂ =>
        subst he₂
        cases h₂
        exact absurd heq.symm (hother hne₁ h₁)
      · exact h.one h₁ h₂ heq

/-- A write keeps the notifier of the mailbox. -/
theorem renews_write {m : Mailbox} (s : Rooms) (now : Instant) (room : String) (role : Role)
    (hm : m.notify = ((s.entry now room).1.mailbox role).notify) :
    s.Renews ((s.entry now room).2.write room (s.entry now room).1 role m) := by
  have hentry := s.renews_entry now room
  refine ⟨hentry.le, fun {room' role' m'} hm' => ?_⟩
  rw [mailbox?_write] at hm'
  split at hm'
  · next he =>
    obtain ⟨rfl, rfl⟩ := he
    cases hm'
    rw [hm]
    exact hentry.old (s.mailbox?_entry now room' role')
  · exact hentry.old hm'

theorem Named.write {m : Mailbox} (h : (s.entry now room).2.Named)
    (hm : m.notify = ((s.entry now room).1.mailbox role).notify) :
    ((s.entry now room).2.write room (s.entry now room).1 role m).Named := by
  have hold : ∀ {room' role' m'},
      ((s.entry now room).2.write room (s.entry now room).1 role m).mailbox? room' role' =
        some m' →
      ∃ m₀, (s.entry now room).2.mailbox? room' role' = some m₀ ∧ m₀.notify = m'.notify := by
    intro room' role' m' hm'
    rw [mailbox?_write] at hm'
    split at hm'
    · next he =>
      obtain ⟨rfl, rfl⟩ := he
      cases hm'
      exact ⟨_, s.mailbox?_entry now room' role', hm.symm⟩
    · exact ⟨m', hm', rfl⟩
  constructor
  · intro room' role' m' hm'
    obtain ⟨m₀, hm₀, hn⟩ := hold hm'
    exact hn ▸ h.created hm₀
  · intro room₁ room₂ role₁ role₂ m₁ m₂ h₁ h₂ heq
    obtain ⟨m₁', h₁', hn₁⟩ := hold h₁
    obtain ⟨m₂', h₂', hn₂⟩ := hold h₂
    exact h.one h₁' h₂' (hn₁.trans (heq.trans hn₂.symm))

theorem mailbox?_of_remove {m : Mailbox} (h : (s.remove room').2.mailbox? room role = some m) :
    room ≠ room' ∧ s.mailbox? room role = some m := by
  rw [mailbox?, lookup_remove] at h
  split at h
  · cases h
  · next hne => exact ⟨hne, h⟩

theorem remove_notifies (s : Rooms) (room : String) : (s.remove room).2.notifies = s.notifies := by
  unfold remove
  split <;> rfl

theorem renews_remove (s : Rooms) (room : String) : s.Renews (s.remove room).2 where
  le := Nat.le_of_eq (s.remove_notifies room).symm
  old hm := .inl ⟨_, (mailbox?_of_remove hm).2, rfl⟩

theorem Named.remove (h : s.Named) (room : String) : (s.remove room).2.Named where
  created hm := by
    rw [remove_notifies]
    exact h.created (mailbox?_of_remove hm).2
  one hm hm' := h.one (mailbox?_of_remove hm).2 (mailbox?_of_remove hm').2

end

end Rooms

namespace FetchTask

/-- The fetch holds a notifier that was created, and that no mailbox but its own has. -/
def Held (rooms : Rooms) (t : FetchTask) : Prop :=
  ∀ n, t.stage.notifier? = some n → n < rooms.notifies ∧
    ∀ room role m, rooms.mailbox? room role = some m → m.notify = n →
      room = t.room ∧ role = t.role

section
variable {rooms rooms' : Rooms} {t t' : FetchTask}

theorem Held.renews (h : t.Held rooms) (hr : rooms.Renews rooms') : t.Held rooms' := by
  intro n hn
  obtain ⟨hlt, hown⟩ := h n hn
  refine ⟨Nat.lt_of_lt_of_le hlt hr.le, fun room role m' hm' heq => ?_⟩
  obtain ⟨m, hm, hold⟩ | hnew := hr.old hm'
  · exact hown room role m hm (hold.trans heq)
  · rw [heq] at hnew
    exact absurd hlt (Nat.not_lt.2 hnew)

/-- What a fetch shows depends on its own mailbox's notifier only. -/
theorem seen_congr (h : ∀ n, t.stage.notifier? = some n →
    rooms'.current t.room t.role n = rooms.current t.room t.role n) :
    t.seen rooms' = t.seen rooms := by
  unfold seen
  cases hst : t.stage with
  | top | returned => rfl
  | peeked n | armed n | parked n => simp only [Stage.seen, h n (by rw [hst]; rfl)]

theorem Held.current_eq (h : t.Held rooms) (hr : rooms.Renews rooms') (hk : rooms.Keeps rooms')
    {n : NotifyId} (hn : t.stage.notifier? = some n) :
    rooms'.current t.room t.role n = rooms.current t.room t.role n := by
  rw [Bool.eq_iff_iff]
  simp only [Rooms.current, Option.any_eq_true, decide_eq_true_eq]
  constructor
  · rintro ⟨m', hm', rfl⟩
    obtain ⟨m, hm, hold⟩ | hnew := hr.old hm'
    · exact ⟨m, hm, hold⟩
    · exact absurd (h _ hn).1 (Nat.not_lt.2 hnew)
  · rintro ⟨m, hm, rfl⟩
    exact hk _ _ m hm

theorem Held.seen_eq (h : t.Held rooms) (hr : rooms.Renews rooms') (hk : rooms.Keeps rooms') :
    t.seen rooms' = t.seen rooms :=
  seen_congr fun _ hn => h.current_eq hr hk hn

/-- A write of a mailbox wakes the fetches that wait for it, and no other. -/
theorem Held.seen_wake (h : t.Held rooms) {room : String} {role : Role} {m : Mailbox}
    (hm : rooms.mailbox? room role = some m) :
    (t.wake [m.notify]).seen rooms =
      if t.room = room ∧ t.role = role then
        { t.seen rooms with stage := (t.seen rooms).stage.wake }
      else t.seen rooms := by
  have hcur : ∀ n, t.stage.notifier? = some n → t.room = room → t.role = role →
      rooms.current t.room t.role n = decide (n = m.notify) := by
    intro n _ hroom hrole
    rw [hroom, hrole]
    simp only [Rooms.current, hm, Option.any_some, eq_comm]
  have hno : ∀ n, t.stage.notifier? = some n → ¬ (t.room = room ∧ t.role = role) →
      n ≠ m.notify := by
    rintro n hn hne rfl
    obtain ⟨hroom, hrole⟩ := (h _ hn).2 room role m hm rfl
    exact hne ⟨hroom.symm, hrole.symm⟩
  split
  · next he =>
    unfold wake seen
    cases hst : t.stage with
    | top | returned | peeked n => simp only [hst, Stage.seen, RoomStage.wake]
    | armed n remaining notified =>
      rw [hst] at hcur
      simp only [Stage.seen, hcur n rfl he.1 he.2, List.mem_singleton]
      by_cases hn : n = m.notify <;> simp [hn, RoomStage.wake]
    | parked n expires notified =>
      rw [hst] at hcur
      simp only [Stage.seen, hcur n rfl he.1 he.2, List.mem_singleton]
      by_cases hn : n = m.notify <;> simp [hn, RoomStage.wake]
  · next he =>
    unfold wake seen
    cases hst : t.stage with
    | top | returned | peeked n => simp only [hst]
    | armed n remaining notified =>
      rw [hst] at hno
      simp [hno n rfl he]
    | parked n expires notified =>
      rw [hst] at hno
      simp [hno n rfl he]

theorem Held.wake (h : t.Held rooms) (woken : List NotifyId) : (t.wake woken).Held rooms := by
  obtain ⟨hroom, hrole, -, -, -, -, hn⟩ := t.wake_kept woken
  intro n hnot
  rw [hn] at hnot
  rw [hroom, hrole]
  exact h n hnot

end

end FetchTask

/-! ## A step, seen from a room -/

namespace FetchTask

/-- What a fetch that looks shows. -/
theorem look_seen (rooms : Rooms) (now : Instant) (t : FetchTask) {next : NotifyId → Stage}
    {next' : RoomStage}
    (hnext : ∀ n, (t.look rooms now next).2.current t.room t.role n = true →
      (next n).seen ((t.look rooms now next).2.current t.room t.role) = next') :
    (t.look rooms now next).1.seen (t.look rooms now next).2 =
      { t.seen rooms with
        stage := (rooms.entry now t.room).1.seen.look next' (t.seen rooms) } := by
  obtain ⟨m, hm, hpeek, hstage⟩ := Watched.look_spec rooms now next t
  obtain ⟨hroom, hrole, hseq, hdl⟩ := Watched.look_call rooms now next t
  have hcur : (t.look rooms now next).2.current t.room t.role m.notify = true := by
    simp only [Rooms.current, hm, Option.any_some, decide_true]
  have hlog : (rooms.entry now t.room).1.seen.log t.role = ⟨m.blobs, m.done⟩ := by
    rw [look_rooms, Rooms.mailbox?_entry] at hm
    cases hm
    rfl
  simp only [seen, hroom, hrole, hseq, hdl, RoomFetch.mk.injEq, true_and, OpenRoom.look, hlog,
    hstage, ← Rooms.reply_peek]
  cases m.peek t.seq with
  | blob | done => rfl
  | pending => exact hnext m.notify hcur

end FetchTask

namespace Server

/-- Notifiers are not shared, and fetches hold those of their own mailboxes. -/
structure Named (s : Server) : Prop where
  rooms : s.rooms.Named
  fetches : ∀ t ∈ s.fetches, t.Held s.rooms

section
variable {s s' : Server} {now : Instant} {room key : String} {role : Role}

theorem entry_seen (s : Server) (now : Instant) (room : String) :
    (s.rooms.entry now room).1.seen = (s.room room).entry now := by
  unfold Rooms.entry Room.seen RoomState.entry Server.room
  cases s.rooms.map.lookup room with
  | some r =>
    simp only [Option.map_some, Option.getD_some, OpenRoom.mk.injEq, and_true]
    funext role
    cases role <;> rfl
  | none =>
    simp only [Option.map_none, Option.getD_none, OpenRoom.mk.injEq]
    refine ⟨?_, rfl⟩
    funext role
    cases role <;> rfl

theorem seen_setMailbox (r : Room) (m : Mailbox) (role : Role) :
    (r.setMailbox m role).seen = r.seen.write role ⟨m.blobs, m.done⟩ := by
  unfold Room.seen OpenRoom.write
  simp only [OpenRoom.mk.injEq]
  refine ⟨funext fun role' => ?_, by cases role <;> rfl⟩
  cases role <;> cases role' <;> rfl

/-- The fetches of a room, when each is changed. -/
theorem fetches_map (s : Server) (room : String) {rooms : Rooms} {f : FetchTask → FetchTask}
    (hroom : ∀ t, (f t).room = t.room) (g : RoomFetch → RoomFetch)
    (hseen : ∀ t ∈ s.fetches, t.room = room → (f t).seen rooms = g (t.seen s.rooms)) :
    (Server.room { rooms, fetches := s.fetches.map f } room).fetches =
      (s.room room).fetches.map g := by
  simp only [Server.room, List.filter_map, List.map_map]
  have hfilter : (fun t => decide (t.room = room)) ∘ f = fun t => decide (t.room = room) :=
    funext fun t => by simp only [Function.comp_apply, hroom]
  rw [hfilter]
  refine List.map_congr_left fun t ht => ?_
  obtain ⟨hmem, hr⟩ := List.mem_filter.1 ht
  exact hseen t hmem (of_decide_eq_true hr)

/-- The fetches of a room, when the store changes. -/
theorem fetches_rooms {rooms : Rooms}
    (hseen : ∀ t ∈ s.fetches, t.room = room → t.seen rooms = t.seen s.rooms) :
    (Server.room { s with rooms } room).fetches = (s.room room).fetches := by
  refine List.map_congr_left fun t ht => ?_
  obtain ⟨hmem, hr⟩ := List.mem_filter.1 ht
  exact hseen t hmem (of_decide_eq_true hr)

/-- A room is looked up. -/
theorem room_entry (h : s.Named) (now : Instant) (key room : String) :
    Server.room { s with rooms := (s.rooms.entry now key).2 } room =
      if key = room then { s.room room with room := some ((s.room room).entry now) }
      else s.room room := by
  have hfetches : (Server.room { s with rooms := (s.rooms.entry now key).2 } room).fetches =
      (s.room room).fetches := fetches_rooms fun t ht _ =>
    (h.fetches t ht).seen_eq (s.rooms.renews_entry now key) (s.rooms.keeps_entry now key)
  split
  · next he =>
    subst he
    simp only [Server.room] at hfetches ⊢
    rw [hfetches, Rooms.lookup_entry, if_pos rfl, Option.map_some, entry_seen]
    rfl
  · next he =>
    simp only [Server.room] at hfetches ⊢
    rw [hfetches, Rooms.lookup_entry, if_neg (Ne.symm he)]

theorem Named.entry (h : s.Named) (now : Instant) (key : String) :
    Named { s with rooms := (s.rooms.entry now key).2 } where
  rooms := h.rooms.entry now key
  fetches t ht := (h.fetches t ht).renews (s.rooms.renews_entry now key)

/-- The server after a write to a mailbox of an entry. -/
def written (s : Server) (now : Instant) (key : String) (role : Role) (m : Mailbox) : Server where
  rooms := (s.rooms.entry now key).2.write key (s.rooms.entry now key).1 role m
  fetches := s.fetches.map (·.wake [m.notify])

theorem Named.written {m : Mailbox} (h : s.Named)
    (hm : m.notify = ((s.rooms.entry now key).1.mailbox role).notify) :
    (s.written now key role m).Named where
  rooms := (h.rooms.entry now key).write hm
  fetches t' ht' := by
    obtain ⟨t, ht, rfl⟩ := List.mem_map.1 ht'
    exact ((h.fetches t ht).renews (s.rooms.renews_write now key role hm)).wake _

/-- A mailbox is written. -/
theorem room_written {m : Mailbox} (h : s.Named)
    (hm : m.notify = ((s.rooms.entry now key).1.mailbox role).notify) (room : String) :
    (s.written now key role m).room room =
      if key = room then (s.room room).write now role ⟨m.blobs, m.done⟩ else s.room room := by
  have hmail : (s.written now key role m).rooms.mailbox? key role = some m := by
    show Rooms.mailbox? (Rooms.write _ _ _ _ _) key role = some m
    rw [Rooms.mailbox?_write, if_pos ⟨rfl, rfl⟩]
  have hseen : ∀ t ∈ s.fetches, (t.wake [m.notify]).seen (s.written now key role m).rooms =
      if t.room = key ∧ t.role = role then
        { t.seen s.rooms with stage := (t.seen s.rooms).stage.wake }
      else t.seen s.rooms := by
    intro t ht
    have hrenews := s.rooms.renews_write now key role hm
    have hsame : t.seen (s.written now key role m).rooms = t.seen s.rooms :=
      (h.fetches t ht).seen_eq hrenews (s.rooms.keeps_write now key role hm)
    rw [← hsame]
    exact ((h.fetches t ht).renews hrenews).seen_wake hmail
  have hroom : ∀ t : FetchTask, (t.wake [m.notify]).room = t.room := fun t => (t.wake_kept _).1
  split
  · next he =>
    subst he
    have hfetches := fetches_map s key hroom
      (fun t => if t.role = role then { t with stage := t.stage.wake } else t) fun t ht hr => by
        rw [hseen t ht]
        simp only [hr, true_and]
        rfl
    have hopen : ((s.written now key role m).rooms.map.lookup key).map Room.seen =
        some (((s.room key).entry now).write role ⟨m.blobs, m.done⟩) := by
      show Option.map Room.seen ((Rooms.write _ _ _ _ _).map.lookup key) = _
      rw [Rooms.lookup_write, if_pos rfl, Option.map_some, seen_setMailbox, entry_seen]
    unfold RoomState.write
    rw [← hfetches, ← hopen]
    rfl
  · next he =>
    have hfetches := fetches_map s room hroom id fun t ht hr => by
      rw [hseen t ht, if_neg fun hk => he (hk.1.symm.trans hr)]
      rfl
    have hopen : (s.written now key role m).rooms.map.lookup room = s.rooms.map.lookup room := by
      show (Rooms.write _ _ _ _ _).map.lookup room = _
      rw [Rooms.lookup_write, if_neg (Ne.symm he), Rooms.lookup_entry, if_neg (Ne.symm he)]
    rw [List.map_id] at hfetches
    show RoomState.mk _ _ = RoomState.mk _ _
    rw [hopen]
    exact congrArg _ hfetches

end

end Server

/-! ## Removals -/

theorem RoomStage.lose_lose (stage : RoomStage) : stage.lose.lose = stage.lose := by
  cases stage <;> simp [lose]

theorem RoomState.remove_remove (s : RoomState) : s.remove.remove = s.remove := by
  simp only [remove, List.map_map, RoomState.mk.injEq, true_and]
  refine List.map_congr_left fun t _ => ?_
  simp only [Function.comp_apply, RoomStage.lose_lose]

namespace FetchTask

theorem wake_nil (t : FetchTask) : t.wake [] = t := by
  obtain ⟨room, role, seq, deadline, stage, pending, orphaned, recreated, waited⟩ := t
  cases stage <;> simp [wake]

theorem seen_orphan (rooms : Rooms) (key : String) (t : FetchTask) :
    (t.orphan key).seen rooms = t.seen rooms := by
  unfold orphan
  split <;> rfl

theorem Held.orphan {rooms : Rooms} {t : FetchTask} (h : t.Held rooms) (key : String) :
    (t.orphan key).Held rooms := by
  unfold FetchTask.orphan
  split <;> exact h

/-- A removal of a room wakes the fetches that wait for its mailboxes, and no other. -/
theorem Held.seen_removed {rooms : Rooms} {t : FetchTask} {key : String} {r : Room}
    (h : t.Held rooms) (hr : rooms.map.lookup key = some r) :
    (t.wake [r.offerer.notify, r.answerer.notify]).seen (rooms.remove key).2 =
      if t.room = key then { t.seen rooms with stage := (t.seen rooms).stage.lose }
      else t.seen rooms := by
  have hmail : ∀ role, rooms.mailbox? key role = some (r.mailbox role) := fun role => by
    rw [Rooms.mailbox?, hr, Option.map_some]
  split
  · next he =>
    subst he
    have hgone : ∀ n, (rooms.remove t.room).2.current t.room t.role n = false := fun n => by
      rw [Rooms.current, Rooms.mailbox?, Rooms.lookup_remove, if_pos rfl]
      rfl
    -- the notifier is woken if it is that of the fetch's own mailbox
    have hwoken : ∀ n, t.stage.notifier? = some n →
        decide (n ∈ [r.offerer.notify, r.answerer.notify]) = rooms.current t.room t.role n := by
      intro n hn
      rw [Bool.eq_iff_iff]
      simp only [Rooms.current, hmail, Option.any_some, decide_eq_true_eq, List.mem_cons,
        List.not_mem_nil, or_false]
      constructor
      · rintro (rfl | rfl)
        · rw [← ((h _ hn).2 _ .offerer _ (hmail .offerer) rfl).2]; rfl
        · rw [← ((h _ hn).2 _ .answerer _ (hmail .answerer) rfl).2]; rfl
      · intro heq
        cases hrole : t.role with
        | offerer => rw [hrole] at heq; exact .inl heq.symm
        | answerer => rw [hrole] at heq; exact .inr heq.symm
    unfold FetchTask.wake seen
    cases hst : t.stage with
    | top | returned | peeked n => simp only [hst, Stage.seen, RoomStage.lose, hgone]
    | armed n remaining notified | parked n expires notified =>
      rw [hst] at hwoken
      simp only [Stage.seen, RoomStage.lose, hgone, hwoken n rfl]
  · next he =>
    have hno : ∀ n, t.stage.notifier? = some n → n ∉ [r.offerer.notify, r.answerer.notify] := by
      intro n hn hmem
      simp only [List.mem_cons, List.not_mem_nil, or_false] at hmem
      obtain rfl | rfl := hmem
      · exact he ((h _ hn).2 _ .offerer _ (hmail .offerer) rfl).1.symm
      · exact he ((h _ hn).2 _ .answerer _ (hmail .answerer) rfl).1.symm
    have hcur : ∀ n, (rooms.remove key).2.current t.room t.role n =
        rooms.current t.room t.role n := fun n => by
      simp only [Rooms.current, Rooms.mailbox?, Rooms.lookup_remove, if_neg he]
    unfold FetchTask.wake seen
    cases hst : t.stage with
    | top | returned | peeked n => simp only [hst, Stage.seen, hcur]
    | armed n remaining notified | parked n expires notified =>
      rw [hst] at hno
      simp only [Stage.seen, hcur, decide_eq_false (hno n rfl), Bool.or_false]

end FetchTask

namespace Server

section
variable {s s' : Server} {now : Instant} {room key : String} {role : Role}

theorem Named.removeRoom (h : s.Named) (key : String) : (s.removeRoom key).Named := by
  unfold Server.removeRoom
  split
  · refine ⟨h.rooms.remove key, fun t' ht' => ?_⟩
    obtain ⟨t, ht, rfl⟩ := List.mem_map.1 ht'
    exact (((h.fetches t ht).orphan key).renews (s.rooms.renews_remove key)).wake _
  · exact h

/-- A room is removed, if it is there. -/
theorem room_removeRoom (h : s.Named) (key room : String) :
    (s.removeRoom key).room room =
      if key = room then (s.room room).remove else s.room room := by
  unfold Server.removeRoom
  by_cases hin : key ∈ s.rooms.map
  · rw [if_pos hin]
    obtain ⟨r, hr⟩ := Rooms.mem_iff_lookup.1 hin
    have hwoken : (s.rooms.remove key).1 = [r.offerer.notify, r.answerer.notify] := by
      simp only [Rooms.remove, hr]
    rw [hwoken]
    have hroom : ∀ t : FetchTask,
        ((t.orphan key).wake [r.offerer.notify, r.answerer.notify]).room = t.room := by
      intro t
      rw [((t.orphan key).wake_kept _).1]
      unfold FetchTask.orphan
      split <;> rfl
    have hseen : ∀ t ∈ s.fetches,
        ((t.orphan key).wake [r.offerer.notify, r.answerer.notify]).seen (s.rooms.remove key).2 =
          if t.room = key then { t.seen s.rooms with stage := (t.seen s.rooms).stage.lose }
          else t.seen s.rooms := by
      intro t ht
      have horph : (t.orphan key).room = t.room := by
        unfold FetchTask.orphan
        split <;> rfl
      rw [((h.fetches t ht).orphan key).seen_removed hr, horph, t.seen_orphan]
    split
    · next he =>
      subst he
      have hfetches := fetches_map s key hroom
        (fun t => { t with stage := t.stage.lose }) fun t ht hr' => by
          rw [hseen t ht, if_pos hr']
      unfold RoomState.remove
      rw [← hfetches]
      show RoomState.mk _ _ = RoomState.mk _ _
      rw [Rooms.lookup_remove, if_pos rfl]
      rfl
    · next he =>
      have hfetches := fetches_map s room hroom id fun t ht hr' => by
        rw [hseen t ht, if_neg fun hk => he (hk.symm.trans hr')]
        rfl
      rw [List.map_id] at hfetches
      show RoomState.mk _ _ = RoomState.mk _ _
      rw [Rooms.lookup_remove, if_neg (Ne.symm he)]
      exact congrArg _ hfetches
  · rw [if_neg hin]
    split
    · next he =>
      subst he
      have hnone : s.rooms.map.lookup key = none := AList.lookup_eq_none.2 hin
      have hlose : ∀ t ∈ (s.room key).fetches, t.stage.lose = t.stage := by
        intro t' ht'
        obtain ⟨t, ht, rfl⟩ := List.mem_map.1 ht'
        have hroom : t.room = key := of_decide_eq_true (List.mem_filter.1 ht).2
        have hgone : ∀ n, s.rooms.current t.room t.role n = false := fun n => by
          rw [Rooms.current, Rooms.mailbox?, hroom, hnone]
          rfl
        unfold FetchTask.seen
        cases t.stage <;> simp [Stage.seen, RoomStage.lose, hgone]
      unfold RoomState.remove
      have hmap : (s.room key).fetches.map (fun t => { t with stage := t.stage.lose }) =
          (s.room key).fetches.map id :=
        List.map_congr_left fun t ht => by simp only [hlose t ht, id_eq]
      rw [hmap, List.map_id]
      show RoomState.mk _ _ = RoomState.mk _ _
      rw [hnone]
      rfl
    · rfl

/-- Rooms are removed. -/
theorem room_foldl_removeRoom (h : s.Named) (keys : List String) (room : String) :
    (keys.foldl removeRoom s).Named ∧ (keys.foldl removeRoom s).room room =
      if room ∈ keys then (s.room room).remove else s.room room := by
  induction keys generalizing s with
  | nil => exact ⟨h, by simp⟩
  | cons key keys ih =>
    obtain ⟨hnamed, hrest⟩ := ih (h.removeRoom key)
    refine ⟨hnamed, ?_⟩
    rw [List.foldl_cons, hrest, room_removeRoom h]
    by_cases he : key = room
    · subst he
      simp only [if_true, List.mem_cons, true_or, RoomState.remove_remove, ite_self]
    · simp only [if_neg he, List.mem_cons, Ne.symm he, false_or]

/-- The rooms that a sweep removes. -/
theorem mem_expired (s : Rooms) (now : Instant) (room : String) :
    room ∈ s.expired now ↔
      ((s.map.lookup room).map Room.seen).any
        (fun r => now - r.lastTouched > s.limits.roomTtl) = true := by
  simp only [Rooms.expired, List.mem_filter, ← AList.mem_keys, Option.any_map]
  constructor
  · exact fun h => h.2
  · intro h
    refine ⟨?_, h⟩
    obtain ⟨r, hr, -⟩ := (Option.any_eq_true _ _).1 h
    exact Rooms.mem_iff_lookup.2 ⟨r, hr⟩

end

end Server

/-! ## A run, seen from a room -/

/-- A step of a fetch, seen from its room. -/
theorem FetchTask.Held.poll_seen {s : Server} {now : Instant} {t : FetchTask}
    {p : FetchTask × Rooms} (h : t.Held s.rooms) (hp : t.poll s.rooms now = some p) :
    ∃ r, (s.room t.room).poll now (t.seen s.rooms) = some (p.1.seen p.2, r) ∧
      (p.2 = (s.rooms.entry now t.room).2 ∧ r = some ((s.room t.room).entry now) ∨
        p.2 = s.rooms ∧ r = (s.room t.room).room) := by
  unfold FetchTask.poll at hp
  unfold RoomState.poll
  cases hst : t.stage with
  | top =>
    have hseen : (t.seen s.rooms).stage = .top := by simp only [FetchTask.seen, hst, Stage.seen]
    simp only [hst, Option.some.injEq] at hp
    subst hp
    refine ⟨_, ?_, .inl ⟨t.look_rooms s.rooms now _, rfl⟩⟩
    have hcur : ∀ n, (t.look s.rooms now .peeked).2.current t.room t.role n = true →
        (Stage.peeked n).seen ((t.look s.rooms now .peeked).2.current t.room t.role) =
          .peeked true := by
      intro n hc
      simp only [Stage.seen, hc]
    have hlook := t.look_seen s.rooms now hcur
    rw [Server.entry_seen] at hlook
    simp only [hseen]
    exact congrArg (fun x => some (x, _)) hlook.symm
  | peeked n =>
    have hseen : (t.seen s.rooms).stage = .peeked (s.rooms.current t.room t.role n) := by
      simp only [FetchTask.seen, hst, Stage.seen]
    simp only [hst] at hp
    refine ⟨_, ?_, .inr ⟨?_, rfl⟩⟩
    · simp only [hseen]
      split at hp
      · next hz =>
        cases hp
        exact if_pos hz
      · next hz =>
        cases hp
        exact if_neg hz
    · split at hp <;> cases hp <;> rfl
  | armed n remaining notified =>
    have hseen : (t.seen s.rooms).stage =
        .armed (s.rooms.current t.room t.role n) remaining notified := by
      simp only [FetchTask.seen, hst, Stage.seen]
    simp only [hst, FetchTask.recheck, Option.some.injEq] at hp
    subst hp
    refine ⟨_, ?_, .inl ⟨t.look_rooms s.rooms now _, rfl⟩⟩
    have hcur : ∀ n', (t.look s.rooms now fun _ => .parked n (now + remaining) notified).2.current
        t.room t.role n' = true →
        (Stage.parked n (now + remaining) notified).seen
          ((t.look s.rooms now fun _ => .parked n (now + remaining) notified).2.current
            t.room t.role) =
          .parked (s.rooms.current t.room t.role n) (now + remaining) notified := by
      intro n' _
      rw [t.look_rooms s.rooms now]
      simp only [Stage.seen]
      rw [h.current_eq (s.rooms.renews_entry now t.room) (s.rooms.keeps_entry now t.room)
        (by rw [hst]; rfl)]
    have hlook := t.look_seen s.rooms now hcur
    rw [Server.entry_seen] at hlook
    simp only [hseen]
    exact congrArg (fun x => some (x, _)) hlook.symm
  | parked n expires notified =>
    have hseen : (t.seen s.rooms).stage =
        .parked (s.rooms.current t.room t.role n) expires notified := by
      simp only [FetchTask.seen, hst, Stage.seen]
    simp only [hst] at hp
    refine ⟨_, ?_, .inr ⟨?_, rfl⟩⟩
    · simp only [hseen]
      split at hp
      · next hn =>
        cases hp
        rw [if_pos hn]
        rfl
      · next hn =>
        rw [if_neg hn]
        split at hp
        · next hle =>
          cases hp
          rw [if_pos hle]
          rfl
        · cases hp
    · split at hp
      · cases hp; rfl
      · split at hp <;> cases hp; rfl
  | returned f => simp only [hst] at hp; cases hp


/-- A fetch holds its own notifier after its step. -/
theorem FetchTask.Held.poll {rooms : Rooms} {now : Instant} {t : FetchTask}
    {p : FetchTask × Rooms} (h : t.Held rooms) (hr : rooms.Named)
    (hp : t.poll rooms now = some p) : p.1.Held p.2 ∧ p.1.room = t.room := by
  have hlook : ∀ next : NotifyId → Stage,
      (∀ n n', (next n).notifier? = some n' → n' = n ∨ t.stage.notifier? = some n') →
      (t.look rooms now next).1.Held (t.look rooms now next).2 ∧
        (t.look rooms now next).1.room = t.room := by
    intro next hnext
    obtain ⟨m, hm, -, hstage⟩ := Watched.look_spec rooms now next t
    obtain ⟨hroom, hrole, -⟩ := Watched.look_call rooms now next t
    refine ⟨fun n hn => ?_, hroom⟩
    rw [hroom, hrole]
    have hn' : n = m.notify ∨ t.stage.notifier? = some n := by
      rw [hstage] at hn
      cases hpeek : m.peek t.seq with
      | blob | done => rw [hpeek] at hn; cases hn
      | pending => rw [hpeek] at hn; exact hnext _ _ hn
    rw [t.look_rooms rooms now next] at hm ⊢
    obtain rfl | hold := hn'
    · have hnamed := hr.entry now t.room
      exact ⟨hnamed.created hm, fun room role m' hm' heq => hnamed.one hm' hm heq⟩
    · exact h.renews (rooms.renews_entry now t.room) n hold
  unfold FetchTask.poll at hp
  cases hst : t.stage with
  | top =>
    simp only [hst, Option.some.injEq] at hp
    subst hp
    refine hlook _ fun n n' hn => .inl ?_
    cases hn
    rfl
  | peeked n =>
    simp only [hst] at hp
    split at hp
    · cases hp
      exact ⟨(fun n hn => by cases hn), rfl⟩
    · cases hp
      refine ⟨fun n' hn => h n' ?_, rfl⟩
      rw [hst]
      exact hn
  | armed n remaining notified =>
    simp only [hst, FetchTask.recheck, Option.some.injEq] at hp
    subst hp
    refine hlook _ fun n' n'' hn => .inr ?_
    rw [hst]
    exact hn
  | parked n expires notified =>
    simp only [hst] at hp
    split at hp
    · cases hp
      exact ⟨(fun n hn => by cases hn), rfl⟩
    · split at hp
      · cases hp
        exact ⟨(fun n hn => by cases hn), rfl⟩
      · cases hp
  | returned f => simp only [hst] at hp; cases hp

namespace Server

section
variable {s s' : Server} {a : ServerAct}

theorem removeRoom_limits (s : Server) (room : String) :
    (s.removeRoom room).rooms.limits = s.rooms.limits := by
  unfold removeRoom
  split
  · exact s.rooms.remove_limits room
  · rfl

theorem foldl_removeRoom_limits (keys : List String) (s : Server) :
    (keys.foldl removeRoom s).rooms.limits = s.rooms.limits := by
  induction keys generalizing s with
  | nil => rfl
  | cons key keys ih => exact (ih _).trans (s.removeRoom_limits key)

/-- No step changes the limits. -/
theorem step_limits (hs : s.step a = some s') : s'.rooms.limits = s.rooms.limits := by
  cases a with
  | publish now room role blob =>
    cases hs
    exact (s.rooms.call_kept now room role (.append blob)).2
  | markDone now room role =>
    cases hs
    exact (s.rooms.call_kept now room role .finish).2
  | delete room => cases hs; exact s.removeRoom_limits room
  | evictExpired now => cases hs; exact foldl_removeRoom_limits _ s
  | fetch now room role seq wait => cases hs; rfl
  | poll k now =>
    simp only [step, Option.map_eq_some_iff, Option.bind_eq_some_iff] at hs
    obtain ⟨p, ⟨t, -, hp⟩, rfl⟩ := hs
    obtain ⟨-, hentry⟩ | ⟨-, hsame⟩ := t.poll_cases hp
    · simp only [hentry, Rooms.entry_limits]
    · simp only [hsame]

theorem named_start (limits : Limits) : (start limits).Named := by
  refine ⟨⟨?_, ?_⟩, nofun⟩
  · intro room role m hm
    cases hm
  · intro room room' role role' m m' hm
    cases hm

/-- A publish, seen from a room. -/
theorem Named.publish (h : s.Named) (now : Instant) (key : String) (role : Role) (blob : Bytes)
    (hs : s.step (.publish now key role blob) = some s') (room : String) :
    s'.Named ∧ if key = room then
        (s.room room).step s.rooms.limits (.publish (s.rooms.full room) now role blob) =
          some (s'.room room)
      else s'.room room = s.room room := by
  have hnil : s.fetches.map (·.wake []) = s.fetches := by
    have hid : ∀ t ∈ s.fetches, t.wake [] = id t := fun t _ => t.wake_nil
    rw [List.map_congr_left hid, List.map_id]
  have hlog := s.entry_seen now key
  have hcrowded : ∀ n, s.rooms.crowded n = true ↔ s.rooms.limits.maxBlobsPerMailbox ≠ 0 ∧
      s.rooms.limits.maxBlobsPerMailbox ≤ n := fun n => by
    simp only [Rooms.crowded, Bool.and_eq_true, decide_eq_true_eq, ge_iff_le]
  simp only [Server.step, Rooms.publish, Option.some.injEq] at hs
  by_cases hfull : s.rooms.full key = true
  · rw [if_pos hfull, hnil] at hs
    subst hs
    refine ⟨h, ?_⟩
    split
    · next he =>
      subst he
      have hnone : s.rooms.map.lookup key = none :=
        AList.lookup_eq_none.2 ((s.rooms.full_iff key).1 hfull).1
      simp [RoomState.step, Server.room, hfull, hnone]
    · rfl
  · rw [if_neg hfull] at hs
    have hfull' : s.rooms.full key = false := eq_false_of_ne_true hfull
    by_cases hd : ((s.rooms.entry now key).1.mailbox role).done = true
    · rw [if_pos hd, hnil] at hs
      subst hs
      refine ⟨h.entry now key, ?_⟩
      rw [room_entry h]
      split
      · next he =>
        subst he
        have hd' : (((s.room key).entry now).log role).shut = true := by rw [← hlog]; exact hd
        simp [RoomState.step, hfull', hd']
      · rfl
    · rw [if_neg hd] at hs
      by_cases hc : s.rooms.crowded ((s.rooms.entry now key).1.mailbox role).blobs.length = true
      · rw [if_pos hc, hnil] at hs
        subst hs
        refine ⟨h.entry now key, ?_⟩
        rw [room_entry h]
        split
        · next he =>
          subst he
          have hd' : (((s.room key).entry now).log role).shut = false := by
            rw [← hlog]; exact eq_false_of_ne_true hd
          simp only [RoomState.step, hfull', Bool.and_false, Bool.false_eq_true, if_false]
          refine (if_neg (ne_true_of_eq_false hd')).trans ?_
          rw [← hlog]
          exact if_pos ((hcrowded _).1 hc)
        · rfl
      · rw [if_neg hc] at hs
        have hw := room_written (m := { (s.rooms.entry now key).1.mailbox role with
          blobs := ((s.rooms.entry now key).1.mailbox role).blobs ++ [blob] }) h rfl room
        subst hs
        refine ⟨h.written rfl, ?_⟩
        split
        · next he =>
          subst he
          rw [if_pos rfl] at hw
          have hd' : (((s.room key).entry now).log role).shut = false := by
            rw [← hlog]; exact eq_false_of_ne_true hd
          simp only [RoomState.step, hfull', Bool.and_false, Bool.false_eq_true, if_false]
          refine (if_neg (ne_true_of_eq_false hd')).trans ?_
          rw [← hlog]
          exact (if_neg (mt (hcrowded _).2 hc)).trans (congrArg some hw.symm)
        · next he =>
          rw [if_neg he] at hw
          exact hw

/-- A fetch has its place among those from its room. -/
theorem room_fetch (s : Server) {k : Nat} {t : FetchTask} (hk : s.fetches[k]? = some t) :
    (s.room t.room).fetches[(s.fetches.take k).countP fun t' => t'.room = t.room]? =
      some (t.seen s.rooms) := by
  have hget := Entries.getElem?_filter (fun t' : FetchTask => decide (t'.room = t.room)) hk
    (decide_eq_true rfl)
  simp only [Server.room, List.getElem?_map, hget, Option.map_some]

/-- A step of a fetch, seen from a room. -/
theorem Named.poll (h : s.Named) {k : Nat} {now : Instant} {t : FetchTask} {p : FetchTask × Rooms}
    (hk : s.fetches[k]? = some t) (hp : t.poll s.rooms now = some p) (room : String) :
    Named { rooms := p.2, fetches := s.fetches.set k p.1 } ∧
      Runs.run (RoomState.step s.rooms.limits) (s.room room)
        (s.request room (.poll k now)).toList =
          some (Server.room { rooms := p.2, fetches := s.fetches.set k p.1 } room) := by
  have ht := List.mem_of_getElem? hk
  obtain ⟨hheld, hroom⟩ := (h.fetches t ht).poll h.rooms hp
  obtain ⟨r, hseen, hrooms⟩ := (h.fetches t ht).poll_seen hp
  -- what becomes of the store, and of the other fetches
  obtain ⟨hnamed, hsame, hopen⟩ : p.2.Named ∧
      (∀ t' ∈ s.fetches, t'.Held p.2 ∧ t'.seen p.2 = t'.seen s.rooms) ∧
      ∀ room, (p.2.map.lookup room).map Room.seen =
        if t.room = room then r else (s.room room).room := by
    obtain ⟨he, rfl⟩ | ⟨he, rfl⟩ := hrooms
    · rw [he]
      have hrenews := s.rooms.renews_entry now t.room
      refine ⟨h.rooms.entry now t.room, fun t' ht' => ⟨(h.fetches t' ht').renews hrenews,
        (h.fetches t' ht').seen_eq hrenews (s.rooms.keeps_entry now t.room)⟩, fun room => ?_⟩
      have hroom := congrArg RoomState.room (room_entry h now t.room room)
      refine hroom.trans ?_
      split
      · next he' => subst he'; rfl
      · rfl
    · rw [he]
      refine ⟨h.rooms, fun t' ht' => ⟨h.fetches t' ht', rfl⟩, fun room => ?_⟩
      split
      · next he' => subst he'; rfl
      · rfl
  refine ⟨⟨hnamed, Entries.forall_mem_set (fun t' ht' => (hsame t' ht').1) hheld⟩, ?_⟩
  have hfetches : ∀ fetches : List FetchTask, (∀ t' ∈ fetches, t' ∈ s.fetches) →
      fetches.map (·.seen p.2) = fetches.map (·.seen s.rooms) := fun fetches hmem =>
    List.map_congr_left fun t' ht' => (hsame t' (hmem t' ht')).2
  have hfilter : ∀ t' ∈ s.fetches.filter (·.room = room), t' ∈ s.fetches :=
    fun t' ht' => (List.mem_filter.1 ht').1
  by_cases he : t.room = room
  · subst he
    have hpos : decide (t.room = t.room) = true := decide_eq_true rfl
    simp only [request, hk, Option.any_some]
    refine Runs.run_cons_eq_some.2 ⟨_, ?_, rfl⟩
    have hset := Entries.filter_set (fun t' : FetchTask => decide (t'.room = t.room)) hk hpos
      (decide_eq_true hroom)
    simp only [RoomState.step, s.room_fetch hk, Option.bind_some, hseen, Option.map_some,
      Option.some.injEq]
    show RoomState.mk _ _ = RoomState.mk _ _
    rw [hopen, if_pos rfl, hset, List.map_set, hfetches _ hfilter]
    rfl
  · have hneg : decide (t.room = room) = false := decide_eq_false he
    have hneg' : decide (p.1.room = room) = false := decide_eq_false (hroom ▸ he)
    simp only [request, hk, Option.any_some, hneg, Bool.false_eq_true, if_false]
    refine congrArg some ?_
    show RoomState.mk _ _ = RoomState.mk _ _
    rw [hopen, if_neg he,
      Entries.filter_set_of_not (fun t' : FetchTask => decide (t'.room = room)) hk hneg hneg',
      hfetches _ hfilter]
    rfl

/-- One step makes of each room what it is to that room. -/
theorem Named.step {limits : Limits} (h : s.Named) (hlim : s.rooms.limits = limits)
    (hs : s.step a = some s') (room : String) :
    s'.Named ∧ Runs.run (RoomState.step limits) (s.room room) (s.request room a).toList =
      some (s'.room room) := by
  subst hlim
  cases a with
  | publish now key role blob =>
    obtain ⟨hnamed, hroom⟩ := h.publish now key role blob hs room
    refine ⟨hnamed, ?_⟩
    by_cases he : key = room
    · simp only [request, if_pos he] at hroom ⊢
      exact Runs.run_cons_eq_some.2 ⟨_, hroom, rfl⟩
    · simp only [request, if_neg he] at hroom ⊢
      rw [hroom]
      rfl
  | markDone now key role =>
    have hw := room_written (m := { (s.rooms.entry now key).1.mailbox role with done := true })
      h rfl room
    cases hs
    refine ⟨h.written rfl, ?_⟩
    by_cases he : key = room
    · subst he
      simp only [request, if_true] at hw ⊢
      have hlog := s.entry_seen now key
      refine Runs.run_cons_eq_some.2 ⟨_, ?_, rfl⟩
      simp only [RoomState.step, ← hlog, Option.some.injEq]
      exact hw.symm
    · simp only [request, if_neg he] at hw ⊢
      exact congrArg some hw.symm
  | delete key =>
    cases hs
    refine ⟨h.removeRoom key, ?_⟩
    rw [room_removeRoom h]
    by_cases he : key = room
    · simp only [request, if_pos he]
      rfl
    · simp only [request, if_neg he]
      rfl
  | evictExpired now =>
    cases hs
    obtain ⟨hnamed, hroom⟩ := room_foldl_removeRoom h (s.rooms.expired now) room
    refine ⟨hnamed, ?_⟩
    rw [hroom]
    refine Runs.run_cons_eq_some.2 ⟨_, ?_, rfl⟩
    simp only [mem_expired, RoomState.step]
    show (if ((s.rooms.map.lookup room).map Room.seen).any _ = true then _ else _) = _
    split <;> rfl
  | fetch now key role seq wait =>
    cases hs
    refine ⟨⟨h.rooms, fun t ht => ?_⟩, ?_⟩
    · rcases List.mem_append.1 ht with ht | ht
      · exact h.fetches t ht
      · cases List.mem_singleton.1 ht
        exact fun n hn => by cases hn
    · by_cases he : key = room
      · subst he
        simp only [request, if_true]
        refine Runs.run_cons_eq_some.2 ⟨_, rfl, ?_⟩
        simp [Server.room, FetchTask.new, FetchTask.seen, Stage.seen]
      · simp [request, Server.room, FetchTask.new, he]
  | poll k now =>
    simp only [Server.step, Option.map_eq_some_iff, Option.bind_eq_some_iff] at hs
    obtain ⟨p, ⟨t, hk, hp⟩, rfl⟩ := hs
    exact h.poll hk hp room

end

end Server

/-- Without a cap on the rooms no publish finds the store full. -/
theorem Server.request_full {s : Server} {room : String} {now : Instant} {role : Role}
    {blob : Bytes} {a : ServerAct} (hcap : s.rooms.limits.maxRooms = 0) :
    s.request room a ≠ some (.publish true now role blob) := by
  have hfull : s.rooms.full room = false := by simp [Rooms.full, hcap]
  cases a with
  | publish => simp [Server.request, hfull]
  | markDone | delete | evictExpired | fetch | poll => simp [Server.request]

/-- Over any requests, in any order, a server shows of a room the run of the requests on that room:
its mailboxes, and where the fetches from it stand and what they returned, are those of a room that
nothing else happens to. The requests on other rooms matter only to a publish that is to create the
room, which fails while they fill the store; without a cap on the rooms they never do. -/
theorem room_isolated (limits : Limits) (room : String) {as : List ServerAct} {s : Server}
    (h : Runs.run Server.step (.start limits) as = some s) :
    Runs.run (RoomState.step limits) .start
        (Runs.shown Server.step (Server.request room) (.start limits) as) = some (s.room room) ∧
      (limits.maxRooms = 0 → ∀ now role blob, RoomAct.publish true now role blob ∉
        Runs.shown Server.step (Server.request room) (.start limits) as) := by
  constructor
  · have hstart : (Server.start limits).room room = .start := rfl
    rw [← hstart]
    refine Runs.projects (I := fun s : Server => s.Named ∧ s.rooms.limits = limits)
      (f := fun s => s.room room) ?_ ⟨Server.named_start limits, rfl⟩ h
    rintro s a s' ⟨hnamed, hlim⟩ hs
    obtain ⟨hnamed', hrun⟩ := hnamed.step hlim hs room
    exact ⟨⟨hnamed', (Server.step_limits hs).trans hlim⟩, hrun⟩
  · intro hcap now role blob hmem
    have hne : ∀ b ∈ Runs.shown Server.step (Server.request room) (.start limits) as,
        ∀ now role blob, b ≠ RoomAct.publish true now role blob := by
      refine Runs.forall_mem_shown (I := fun s : Server => s.rooms.limits = limits)
        (fun s a s' hlim hs => (Server.step_limits hs).trans hlim) ?_ rfl
      rintro s a b rfl hb now role blob rfl
      exact Server.request_full hcap hb
    exact hne _ hmem now role blob rfl

/-- A fetch waits in one room while another is published to, swept and deleted. -/
theorem room_isolated_of_other : ∃ s,
    Runs.run Server.step (.start ⟨300, 4, 9⟩)
      [.publish 0 "q" .offerer [1], .fetch 1 "r" .offerer 0 10, .poll 0 1,
        .publish 2 "r" .offerer [7], .delete "q", .evictExpired 3, .poll 0 4, .poll 0 4] =
      some s ∧
    Runs.run (RoomState.step ⟨300, 4, 9⟩) .start
      [.fetch 1 .offerer 0 10, .poll 0 1, .publish false 2 .offerer [7], .sweep 3, .poll 0 4,
        .poll 0 4] = some (s.room "r") ∧
    (s.room "r").fetches.map (·.stage) = [.returned (.blob [7])] := by
  have hrun : ∃ s, Runs.run Server.step (.start ⟨300, 4, 9⟩)
      [.publish 0 "q" .offerer [1], .fetch 1 "r" .offerer 0 10, .poll 0 1,
        .publish 2 "r" .offerer [7], .delete "q", .evictExpired 3, .poll 0 4, .poll 0 4] =
      some s ∧
      (s.room "r").fetches.map (·.stage) = [.returned (.blob [7])] := ⟨_, rfl, rfl⟩
  obtain ⟨s, h, hst⟩ := hrun
  exact ⟨s, h, (room_isolated ⟨300, 4, 9⟩ "r" h).1, hst⟩

end WebrtcDatachannels.Signaling
