import WebrtcDatachannels.Lib.Runs
import WebrtcDatachannels.Signaling.Rooms

/-!
# Blocked fetches of a removed room

`Rooms::fetch` runs beside the other requests; it is cut where it takes the lock and where it waits,
and `notify.notified()` is woken by every `notify_waiters` after its creation. A fetch is
`orphaned` when the room in which it peeked `Pending` is removed. The protocol answers such a fetch
with the done response; a woken `fetch` starts over instead, and looks the room up again. It is
released as the protocol says in a run exactly when every step an orphaned fetch takes is let
through by `FetchTask.Passes`: the room was created again by someone else, and its mailbox marked.
-/

namespace WebrtcDatachannels.Signaling

/-- Where a fetch stands: before a look at the mailbox; past a look that found `Pending`; with
`notified` created and the remaining time computed, before the second look; waiting until the time
is over; returned. The flag says that the notifier has fired since `notified` was created. -/
inductive Stage where
  | top
  | peeked (notify : NotifyId)
  | armed (notify : NotifyId) (remaining : Nat) (notified : Bool)
  | parked (notify : NotifyId) (expires : Instant) (notified : Bool)
  | returned (outcome : Fetch)
deriving DecidableEq, Repr

/-- The fetch is before a look at its mailbox. -/
def Stage.looks : Stage → Bool
  | .top | .armed .. => true
  | _ => false

/-- A call of `Rooms::fetch`. The last four fields are its history: it has peeked `Pending`, its
room was removed since, and then it created the room again or decided to wait. -/
structure FetchTask where
  room : String
  role : Role
  seq : Nat
  deadline : Instant
  stage : Stage
  pending : Bool
  orphaned : Bool
  recreated : Bool
  waited : Bool
deriving DecidableEq, Repr

namespace FetchTask

/-- A call with this deadline. -/
def new (room : String) (role : Role) (seq : Nat) (deadline : Instant) : FetchTask :=
  { room, role, seq, deadline, stage := .top, pending := false, orphaned := false,
    recreated := false, waited := false }

/-- `notify_waiters` on these notifiers. -/
def wake (woken : List NotifyId) (t : FetchTask) : FetchTask :=
  match t.stage with
  | .armed notify remaining notified =>
    { t with stage := .armed notify remaining (notified || notify ∈ woken) }
  | .parked notify expires notified =>
    { t with stage := .parked notify expires (notified || notify ∈ woken) }
  | _ => t

/-- The call has returned. -/
def isReturned (t : FetchTask) : Bool :=
  match t.stage with
  | .returned _ => true
  | _ => false

/-- The room is removed. -/
def orphan (room : String) (t : FetchTask) : FetchTask :=
  if t.room = room ∧ t.pending = true ∧ t.isReturned = false then { t with orphaned := true } else t

end FetchTask

/-- The store with the calls of `fetch`. -/
structure Server where
  rooms : Rooms
  fetches : List FetchTask

/-- What can happen on a server: a request, or a step of a running fetch. -/
inductive ServerAct where
  | publish (now : Instant) (room : String) (role : Role) (blob : Bytes)
  | markDone (now : Instant) (room : String) (role : Role)
  | delete (room : String)
  | evictExpired (now : Instant)
  | fetch (now : Instant) (room : String) (role : Role) (seq : Nat) (wait : Nat)
  | poll (k : Nat) (now : Instant)

/-- A look at the mailbox, and where the fetch goes on when it is `Pending`. Source: the two calls
of `fetch_now` in `Rooms::fetch`. -/
def FetchTask.look (rooms : Rooms) (now : Instant) (next : NotifyId → Stage) (t : FetchTask) :
    FetchTask × Rooms :=
  let p := rooms.fetchNow now t.room t.role t.seq
  let t := { t with recreated := t.recreated || (t.orphaned && t.room ∉ rooms.map) }
  match p.1.1 with
  | .blob blob => ({ t with stage := .returned (.blob blob) }, p.2)
  | .done => ({ t with stage := .returned .done }, p.2)
  | .pending => ({ t with stage := next p.1.2, pending := true }, p.2)

/-- The second look, after which the fetch returns or waits. An orphaned fetch that does not return
decides to wait on. -/
def FetchTask.recheck (rooms : Rooms) (now : Instant) (notify : NotifyId) (remaining : Nat)
    (notified : Bool) (t : FetchTask) : FetchTask × Rooms :=
  let p := t.look rooms now fun _ => .parked notify (now + remaining) notified
  ({ p.1 with waited := t.waited || (t.orphaned && !p.1.isReturned) }, p.2)

/-- The fetch goes on to its next lock or wait. Source: `Rooms::fetch`. -/
def FetchTask.poll (rooms : Rooms) (now : Instant) (t : FetchTask) :
    Option (FetchTask × Rooms) :=
  match t.stage with
  | .top => some (t.look rooms now .peeked)
  | .peeked notify =>
    if t.deadline - now = 0 then some ({ t with stage := .returned .pending }, rooms)
    else some ({ t with stage := .armed notify (t.deadline - now) false }, rooms)
  | .armed notify remaining notified => some (t.recheck rooms now notify remaining notified)
  | .parked _ expires notified =>
    if notified then some ({ t with stage := .top }, rooms)
    else if expires ≤ now then some ({ t with stage := .returned .pending }, rooms)
    else none
  | .returned _ => none

/-- The steps that a fetch takes at most until it has returned, unless it waits again. -/
def Stage.left : Stage → Nat
  | .parked _ _ _ => 4
  | .top => 3
  | .peeked _ => 2
  | .armed _ _ _ => 1
  | .returned _ => 0

/-- The fetch is not kept from returning: whenever it is polled it gets nearer to its return or
decides to wait, and a look that finds the mailbox done returns so. -/
structure FetchTask.Returns (rooms : Rooms) (t : FetchTask) : Prop where
  nears : t.isReturned = false → ∀ now, ∃ p, t.poll rooms now = some p ∧
    (p.1.stage.left < t.stage.left ∨ p.1.waited = true)
  done : t.stage.looks = true → ∀ m, rooms.mailbox? t.room t.role = some m →
    m.peek t.seq = .done → ∀ now p, t.poll rooms now = some p → p.1.stage = .returned .done

/-- What the next step of an orphaned fetch meets: on its first look the room is there again and has
not the blob, its time is not over when it arms, and on its second look the mailbox is marked. -/
def FetchTask.Passes (rooms : Rooms) (now : Instant) (t : FetchTask) : Prop :=
  match t.stage with
  | .top => ∃ m, rooms.mailbox? t.room t.role = some m ∧ ∀ blob, m.peek t.seq ≠ .blob blob
  | .peeked _ => t.deadline - now ≠ 0
  | .armed _ _ _ => ∃ m, rooms.mailbox? t.room t.role = some m ∧ m.peek t.seq = .done
  | _ => True

namespace Server

/-- A server with no room and no fetch. -/
def start (limits : Limits) : Server := { rooms := .new limits, fetches := [] }

/-- `map.remove(room)`, with the wake of its two mailboxes. -/
def removeRoom (s : Server) (room : String) : Server :=
  if room ∈ s.rooms.map then
    { rooms := (s.rooms.remove room).2
      fetches := s.fetches.map fun t => (t.orphan room).wake (s.rooms.remove room).1 }
  else s

/-- One step. -/
def step (s : Server) : ServerAct → Option Server
  | .publish now room role blob =>
    let p := s.rooms.publish now room role blob
    some { rooms := p.2.2, fetches := s.fetches.map (·.wake p.2.1) }
  | .markDone now room role =>
    let p := s.rooms.markDone now room role
    some { rooms := p.2.2, fetches := s.fetches.map (·.wake p.2.1) }
  | .delete room => some (s.removeRoom room)
  | .evictExpired now => some ((s.rooms.expired now).foldl removeRoom s)
  | .fetch now room role seq wait =>
    some { s with fetches := s.fetches ++ [.new room role seq (now + wait)] }
  | .poll k now =>
    ((s.fetches[k]?).bind (·.poll s.rooms now)).map fun p =>
      { rooms := p.2, fetches := s.fetches.set k p.1 }

/-- Every fetch whose room was removed under it is released with the done response, without waiting
on and without creating the room again; it gets there in its own next steps; and no fetch waits for
a notifier of no mailbox. -/
structure Released (s : Server) : Prop where
  done : ∀ t ∈ s.fetches, t.orphaned = true →
    (∀ f, t.stage = .returned f → f = .done) ∧ t.waited = false ∧ t.recreated = false
  returns : ∀ t ∈ s.fetches, t.orphaned = true → t.Returns s.rooms
  parked : ∀ t ∈ s.fetches, ∀ notify expires, t.stage = .parked notify expires false →
    ∃ room role m, s.rooms.mailbox? room role = some m ∧ m.notify = notify

/-- Every step of an orphaned fetch is one that `Passes`. -/
def Releases (s : Server) (a : ServerAct) : Prop :=
  ∀ k now t, a = .poll k now → s.fetches[k]? = some t → t.orphaned = true → t.Passes s.rooms now

end Server

/-! ## Notifiers that stay -/

/-- Every mailbox that is there keeps its notifier. -/
def Rooms.Keeps (s s' : Rooms) : Prop :=
  ∀ room role m, s.mailbox? room role = some m →
    ∃ m', s'.mailbox? room role = some m' ∧ m'.notify = m.notify

namespace Rooms

section
variable {s : Rooms} {now : Instant} {room : String} {role : Role}

theorem keeps_refl (s : Rooms) : s.Keeps s := fun _ _ m hm => ⟨m, hm, rfl⟩

theorem mem_of_mailbox? {m : Mailbox} (h : s.mailbox? room role = some m) : room ∈ s.map := by
  obtain ⟨r, hr, -⟩ := Option.map_eq_some_iff.1 h
  exact mem_iff_lookup.2 ⟨r, hr⟩

/-- The mailbox of an entry that is there. -/
theorem entry_eq {m : Mailbox} (h : s.mailbox? room role = some m) :
    (s.entry now room).1.mailbox role = m :=
  Option.some.inj ((entry_of_mem (mem_of_mailbox? h) role).symm.trans h)

theorem mailbox?_entry (s : Rooms) (now : Instant) (room : String) (role : Role) :
    (s.entry now room).2.mailbox? room role = some ((s.entry now room).1.mailbox role) := by
  simp [mailbox?, lookup_entry]

theorem keeps_entry (s : Rooms) (now : Instant) (room : String) :
    s.Keeps (s.entry now room).2 := by
  intro room' role m hm
  by_cases h : room' = room
  · subst h
    exact ⟨_, s.mailbox?_entry now room' role, by rw [entry_eq hm]⟩
  · refine ⟨m, ?_, rfl⟩
    rw [← hm]
    simp [mailbox?, lookup_entry, h]

/-- A write that leaves the notifier alone keeps the notifiers. -/
theorem keeps_write (s : Rooms) (now : Instant) (room : String) (role : Role) {m : Mailbox}
    (hm : m.notify = ((s.entry now room).1.mailbox role).notify) :
    s.Keeps ((s.entry now room).2.write room (s.entry now room).1 role m) := by
  intro room' role' m₀ h₀
  by_cases h : room' = room
  · subst h
    refine ⟨((s.entry now room').1.setMailbox m role).mailbox role', ?_, ?_⟩
    · simp [mailbox?, lookup_write]
    · by_cases hr : role' = role
      · subst hr
        rw [Room.mailbox_setMailbox, hm, entry_eq h₀]
      · rw [Room.mailbox_setMailbox_ne _ _ hr, entry_eq h₀]
  · refine ⟨m₀, ?_, rfl⟩
    rw [← h₀]
    simp [mailbox?, lookup_write, lookup_entry, h]

theorem keeps_publish (s : Rooms) (now : Instant) (room : String) (role : Role) (blob : Bytes) :
    s.Keeps (s.publish now room role blob).2.2 := by
  simp only [publish]
  split
  · exact s.keeps_refl
  · split
    · exact s.keeps_entry now room
    · split
      · exact s.keeps_entry now room
      · exact s.keeps_write now room role rfl

theorem keeps_markDone (s : Rooms) (now : Instant) (room : String) (role : Role) :
    s.Keeps (s.markDone now room role).2.2 :=
  s.keeps_write now room role rfl

/-- A look at a mailbox that is there. -/
theorem fetchNow_of_some {m : Mailbox} (h : s.mailbox? room role = some m) (seq : Nat) :
    (s.fetchNow now room role seq).1.1 = m.peek seq := by
  simp only [fetchNow, entry_eq h]

theorem mailbox?_of_mem (h : room ∈ s.map) : ∃ m, s.mailbox? room role = some m := by
  obtain ⟨r, hr⟩ := mem_iff_lookup.1 h
  exact ⟨r.mailbox role, by simp [mailbox?, hr]⟩

end

end Rooms

/-! ## One fetch -/

/-- The notifier that a fetch is to be woken by. -/
def Stage.notifier? : Stage → Option NotifyId
  | .peeked notify | .armed notify _ _ | .parked notify _ _ => some notify
  | _ => none

/-- What a run keeps of a fetch while its steps are let through: before its room is removed it holds
the notifier of its mailbox, and afterwards it has been woken, and does what the protocol says. -/
structure FetchTask.Good (rooms : Rooms) (t : FetchTask) : Prop where
  current : t.orphaned = false → ∀ notify, t.stage.notifier? = some notify →
    t.pending = true ∧ ∃ m, rooms.mailbox? t.room t.role = some m ∧ m.notify = notify
  clean : t.waited = false ∧ t.recreated = false
  done : t.orphaned = true → ∀ f, t.stage = .returned f → f = .done
  woken : t.orphaned = true → ∀ notify expires, t.stage ≠ .parked notify expires false

namespace FetchTask

variable {rooms rooms' : Rooms} {t t' : FetchTask} {now : Instant}

theorem Good.mono (h : t.Good rooms) (hk : rooms.Keeps rooms') : t.Good rooms' := by
  refine ⟨fun ho notify hn => ?_, h.clean, h.done, h.woken⟩
  obtain ⟨hp, m, hm, hnot⟩ := h.current ho notify hn
  obtain ⟨m', hm', hnot'⟩ := hk _ _ m hm
  exact ⟨hp, m', hm', hnot'.trans hnot⟩

/-- A wake sets flags only. -/
theorem wake_kept (woken : List NotifyId) (t : FetchTask) :
    (t.wake woken).room = t.room ∧ (t.wake woken).role = t.role ∧
      (t.wake woken).pending = t.pending ∧ (t.wake woken).orphaned = t.orphaned ∧
      (t.wake woken).waited = t.waited ∧ (t.wake woken).recreated = t.recreated ∧
      (t.wake woken).stage.notifier? = t.stage.notifier? := by
  obtain ⟨room, role, seq, deadline, stage, pending, orphaned, recreated, waited⟩ := t
  cases stage <;> exact ⟨rfl, rfl, rfl, rfl, rfl, rfl, rfl⟩

theorem wake_returned (woken : List NotifyId) (t : FetchTask) (f : Fetch) :
    (t.wake woken).stage = .returned f ↔ t.stage = .returned f := by
  obtain ⟨room, role, seq, deadline, stage, pending, orphaned, recreated, waited⟩ := t
  cases stage <;> simp [wake]

/-- A fetch that waits unwoken after a wake waited so before, for another notifier. -/
theorem wake_parked {woken : List NotifyId} {notify : NotifyId} {expires : Instant}
    (h : (t.wake woken).stage = .parked notify expires false) :
    t.stage = .parked notify expires false ∧ notify ∉ woken := by
  obtain ⟨room, role, seq, deadline, stage, pending, orphaned, recreated, waited⟩ := t
  cases stage with
  | parked notify' expires' notified =>
    simp only [wake, Stage.parked.injEq, Bool.or_eq_false_iff, decide_eq_false_iff_not] at h
    obtain ⟨rfl, rfl, rfl, hno⟩ := h
    exact ⟨rfl, hno⟩
  | top => cases h
  | peeked => cases h
  | armed => cases h
  | returned => cases h

theorem Good.wake (h : t.Good rooms) (woken : List NotifyId) : (t.wake woken).Good rooms := by
  obtain ⟨hroom, hrole, hp, ho, hw, hr, hn⟩ := t.wake_kept woken
  refine ⟨?_, ?_, ?_, ?_⟩
  · rw [ho, hroom, hrole, hp, hn]; exact h.current
  · rw [hw, hr]; exact h.clean
  · intro hoo f hf
    exact h.done (ho ▸ hoo) f ((wake_returned woken t f).1 hf)
  · intro hoo notify expires hpk
    exact h.woken (ho ▸ hoo) notify expires (wake_parked hpk).1

/-- A removal of the fetch's room orphans it unless it has returned or not peeked, and wakes it. -/
theorem Good.removed {room : String} (h : t.Good rooms) :
    ((t.orphan room).wake (rooms.remove room).1).Good (rooms.remove room).2 := by
  by_cases horph : t.room = room ∧ t.pending = true ∧ t.isReturned = false
  · have he : t.orphan room = { t with orphaned := true } := if_pos horph
    rw [he]
    obtain ⟨hroom, hrole, hp, ho, hw, hr, hn⟩ :=
      ({ t with orphaned := true } : FetchTask).wake_kept (rooms.remove room).1
    refine ⟨fun hf => ?_, ?_, ?_, ?_⟩
    · rw [ho] at hf; cases hf
    · rw [hw, hr]; exact h.clean
    · intro _ f hf
      -- a fetch that has returned is not orphaned
      have hst : t.stage = .returned f := (wake_returned _ { t with orphaned := true } f).1 hf
      have hret := horph.2.2
      simp [isReturned, hst] at hret
    · intro _ notify expires hpk
      obtain ⟨hst, hno⟩ := wake_parked hpk
      have hst : t.stage = .parked notify expires false := hst
      cases hto : t.orphaned with
      | true => exact h.woken hto notify expires hst
      | false =>
        -- its notifier is that of its mailbox, which the removal wakes
        obtain ⟨-, m, hm, rfl⟩ := h.current hto notify (by rw [hst]; rfl)
        rw [horph.1] at hm
        obtain ⟨r, hl, rfl⟩ := Option.map_eq_some_iff.1 hm
        refine hno ?_
        simp only [Rooms.remove, hl]
        cases t.role <;> simp [Room.mailbox]
  · have he : t.orphan room = t := if_neg horph
    rw [he]
    refine Good.wake ?_ _
    refine ⟨fun ho notify hn => ?_, h.clean, h.done, h.woken⟩
    obtain ⟨hp, m, hm, hnot⟩ := h.current ho notify hn
    refine ⟨hp, m, ?_, hnot⟩
    have hne : t.room ≠ room := by
      intro hroom
      refine horph ⟨hroom, hp, ?_⟩
      unfold isReturned
      split
      · next hst => rw [hst] at hn; cases hn
      · rfl
    rw [← hm]
    simp [Rooms.mailbox?, Rooms.lookup_remove, hne]

/-- A look looks the room up. -/
theorem look_rooms (t : FetchTask) (rooms : Rooms) (now : Instant) (next : NotifyId → Stage) :
    (t.look rooms now next).2 = (rooms.entry now t.room).2 := by
  simp only [look]
  split <;> rfl

/-- A step of a fetch is a look at its mailbox, or leaves the store alone. -/
theorem poll_cases (t : FetchTask) {rooms : Rooms} {now : Instant} {p : FetchTask × Rooms}
    (hp : t.poll rooms now = some p) :
    ((t.stage = .top ∨ ∃ notify remaining notified, t.stage = .armed notify remaining notified) ∧
      p.2 = (rooms.entry now t.room).2) ∨
    (¬ (t.stage = .top ∨
      ∃ notify remaining notified, t.stage = .armed notify remaining notified) ∧ p.2 = rooms) := by
  unfold poll at hp
  split at hp
  · next hst => cases hp; exact .inl ⟨.inl hst, t.look_rooms rooms now _⟩
  · next hst =>
    split at hp <;> cases hp <;> exact .inr ⟨by rw [hst]; nofun, rfl⟩
  · next hst => cases hp; exact .inl ⟨.inr ⟨_, _, _, hst⟩, t.look_rooms rooms now _⟩
  · next hst =>
    split at hp
    · cases hp; exact .inr ⟨by rw [hst]; nofun, rfl⟩
    · split at hp
      · cases hp; exact .inr ⟨by rw [hst]; nofun, rfl⟩
      · cases hp
  · cases hp

/-- A look leaves the call and the two flags it does not set alone. -/
theorem look_kept (rooms : Rooms) (now : Instant) (next : NotifyId → Stage) (t : FetchTask) :
    (t.look rooms now next).1.orphaned = t.orphaned ∧
      (t.look rooms now next).1.waited = t.waited ∧
      (t.look rooms now next).1.room = t.room ∧ (t.look rooms now next).1.role = t.role ∧
      (t.look rooms now next).1.recreated = (t.recreated || (t.orphaned && t.room ∉ rooms.map)) ∧
      rooms.Keeps (t.look rooms now next).2 := by
  have hk := rooms.keeps_entry now t.room
  simp only [look]
  split <;> exact ⟨rfl, rfl, rfl, rfl, rfl, hk⟩

/-- Where a fetch stands after a look. -/
theorem look_stage (rooms : Rooms) (now : Instant) (next : NotifyId → Stage) (t : FetchTask) :
    (∃ blob, (rooms.fetchNow now t.room t.role t.seq).1.1 = .blob blob ∧
      (t.look rooms now next).1.stage = .returned (.blob blob)) ∨
    ((rooms.fetchNow now t.room t.role t.seq).1.1 = .done ∧
      (t.look rooms now next).1.stage = .returned .done) ∨
    ((rooms.fetchNow now t.room t.role t.seq).1.1 = .pending ∧
      (t.look rooms now next).1.pending = true ∧
      ∃ m, (t.look rooms now next).2.mailbox? t.room t.role = some m ∧
        (t.look rooms now next).1.stage = next m.notify) := by
  have hm := rooms.mailbox?_entry now t.room t.role
  simp only [look]
  split
  · next blob hf => exact .inl ⟨blob, hf, rfl⟩
  · next hf => exact .inr (.inl ⟨hf, rfl⟩)
  · next hf => exact .inr (.inr ⟨hf, rfl, _, hm, rfl⟩)

/-- A look of an orphaned fetch creates nothing when its room is there. -/
theorem look_recreated (next : NotifyId → Stage) (hr : t.recreated = false)
    (hin : t.orphaned = true → t.room ∈ rooms.map) :
    (t.look rooms now next).1.recreated = false := by
  rw [(t.look_kept rooms now next).2.2.2.2.1, hr]
  cases ho : t.orphaned with
  | false => rfl
  | true => simp [hin ho]

/-- A look that finds the mailbox done returns so. -/
theorem look_done {m : Mailbox} (next : NotifyId → Stage)
    (hm : rooms.mailbox? t.room t.role = some m) (hd : m.peek t.seq = .done) :
    (t.look rooms now next).1.stage = .returned .done := by
  have hf : (rooms.fetchNow now t.room t.role t.seq).1.1 = .done :=
    (Rooms.fetchNow_of_some hm t.seq).trans hd
  rcases t.look_stage rooms now next with ⟨b, hf', -⟩ | ⟨-, hst⟩ | ⟨hf', -⟩
  · rw [hf] at hf'; cases hf'
  · exact hst
  · rw [hf] at hf'; cases hf'

/-- The first look of a loop. -/
theorem Good.first (h : t.Good rooms)
    (hrel : t.orphaned = true → ∃ m, rooms.mailbox? t.room t.role = some m ∧
      ∀ blob, m.peek t.seq ≠ .blob blob) :
    (t.look rooms now .peeked).1.Good (t.look rooms now .peeked).2 := by
  obtain ⟨ho, hw, hroom, hrole, -, -⟩ := t.look_kept rooms now .peeked
  refine ⟨fun hno notify hn => ?_, ⟨hw.trans h.clean.1, ?_⟩, fun hoo f hf => ?_,
    fun hoo notify expires hpk => ?_⟩
  · rw [hroom, hrole]
    rcases t.look_stage rooms now .peeked with ⟨b, -, hst⟩ | ⟨-, hst⟩ | ⟨-, hp, m, hm, hst⟩
    · rw [hst] at hn; cases hn
    · rw [hst] at hn; cases hn
    · rw [hst] at hn
      cases hn
      exact ⟨hp, m, hm, rfl⟩
  · refine look_recreated _ h.clean.2 fun hoo => ?_
    obtain ⟨m, hm, -⟩ := hrel hoo
    exact Rooms.mem_of_mailbox? hm
  · obtain ⟨m, hm, hno⟩ := hrel (ho ▸ hoo)
    rcases t.look_stage rooms now .peeked with ⟨b, hf', -⟩ | ⟨-, hst⟩ | ⟨-, -, m', -, hst⟩
    · rw [Rooms.fetchNow_of_some hm] at hf'
      exact absurd hf' (hno b)
    · rw [hst] at hf; cases hf; rfl
    · rw [hst] at hf; cases hf
  · rcases t.look_stage rooms now .peeked with ⟨b, -, hst⟩ | ⟨-, hst⟩ | ⟨-, -, m', -, hst⟩
    all_goals rw [hst] at hpk; cases hpk

/-- The second look of a loop, after which an orphaned fetch has returned. -/
theorem Good.second {notify : NotifyId} {remaining : Nat} {notified : Bool} (h : t.Good rooms)
    (hst : t.stage = .armed notify remaining notified)
    (hrel : t.orphaned = true → ∃ m, rooms.mailbox? t.room t.role = some m ∧
      m.peek t.seq = .done) :
    (t.recheck rooms now notify remaining notified).1.Good
      (t.recheck rooms now notify remaining notified).2 := by
  simp only [recheck]
  obtain ⟨ho, -, hroom, hrole, -, hkeeps⟩ :=
    t.look_kept rooms now fun _ => .parked notify (now + remaining) notified
  have hlook := t.look_stage rooms now fun _ => .parked notify (now + remaining) notified
  -- the mailbox of an orphaned fetch is marked
  have hdone : t.orphaned = true →
      (t.look rooms now fun _ => .parked notify (now + remaining) notified).1.stage =
        .returned .done := by
    intro hoo
    obtain ⟨m, hm, hpeek⟩ := hrel hoo
    exact look_done _ hm hpeek
  refine ⟨fun hno n hn => ?_, ⟨?_, ?_⟩, fun hoo f hf => ?_, fun hoo n expires hpk => ?_⟩
  · have hno : t.orphaned = false := ho ▸ hno
    obtain ⟨hp, m, hm, hnot⟩ := h.current hno notify (by rw [hst]; rfl)
    obtain ⟨m', hm', hnot'⟩ := hkeeps _ _ m hm
    rcases hlook with ⟨b, -, hs⟩ | ⟨-, hs⟩ | ⟨-, hp', -, -, hs⟩
    · rw [hs] at hn; cases hn
    · rw [hs] at hn; cases hn
    · rw [hs] at hn
      cases hn
      exact ⟨hp', m', by rw [hroom, hrole]; exact hm', hnot'.trans hnot⟩
  · show (t.waited || (t.orphaned && _)) = false
    rw [h.clean.1]
    cases hoo : t.orphaned with
    | false => rfl
    | true => simp [isReturned, hdone hoo]
  · refine look_recreated _ h.clean.2 fun hoo => ?_
    obtain ⟨m, hm, -⟩ := hrel hoo
    exact Rooms.mem_of_mailbox? hm
  · rw [hdone (ho ▸ hoo)] at hf
    cases hf
    rfl
  · rw [hdone (ho ▸ hoo)] at hpk
    cases hpk

/-- An orphaned fetch has been woken, so it can be polled until it returns or waits again. -/
theorem Good.returns (h : t.Good rooms) (ho : t.orphaned = true) : t.Returns rooms := by
  refine ⟨fun hret now => ?_, fun hlooks m hm hd now p hp => ?_⟩
  · unfold FetchTask.poll
    split
    · next hst =>
      refine ⟨_, rfl, .inl ?_⟩
      rcases t.look_stage rooms now .peeked with ⟨b, -, hs⟩ | ⟨-, hs⟩ | ⟨-, -, m, -, hs⟩ <;>
        rw [hs, hst] <;> simp [Stage.left]
    · next notify hst =>
      split <;> exact ⟨_, rfl, .inl (by simp [hst, Stage.left])⟩
    · next notify remaining notified hst =>
      refine ⟨_, rfl, ?_⟩
      simp only [recheck]
      rcases t.look_stage rooms now fun _ => .parked notify (now + remaining) notified with
        ⟨b, -, hs⟩ | ⟨-, hs⟩ | ⟨-, -, m, -, hs⟩
      · exact .inl (by simp [hs, hst, Stage.left])
      · exact .inl (by simp [hs, hst, Stage.left])
      · exact .inr (by simp [isReturned, hs, ho])
    · next notify expires notified hst =>
      cases notified with
      | true => exact ⟨_, rfl, .inl (by simp [hst, Stage.left])⟩
      | false => exact absurd hst (h.woken ho notify expires)
    · next f hst => simp [isReturned, hst] at hret
  · unfold FetchTask.poll at hp
    split at hp
    · cases hp; exact look_done .peeked hm hd
    · next hst => rw [hst] at hlooks; cases hlooks
    · cases hp; exact look_done _ hm hd
    · next hst => rw [hst] at hlooks; cases hlooks
    · cases hp

/-- A step that is let through. -/
theorem Good.poll {p : FetchTask × Rooms} (h : t.Good rooms) (hp : t.poll rooms now = some p)
    (hrel : t.orphaned = true → t.Passes rooms now) :
    p.1.Good p.2 := by
  unfold FetchTask.poll at hp
  split at hp
  · next hst =>
    cases hp
    refine h.first fun ho => ?_
    simpa only [Passes, hst] using hrel ho
  · next notify hst =>
    split at hp
    · next hz =>
      cases hp
      refine ⟨fun _ _ hn => ?_, h.clean, fun ho f hf => ?_, fun _ _ _ hpk => ?_⟩
      · cases hn
      · have hnz : t.deadline - now ≠ 0 := by simpa only [Passes, hst] using hrel ho
        exact absurd hz hnz
      · cases hpk
    · cases hp
      refine ⟨fun ho n hn => ?_, h.clean, fun _ _ hf => ?_, fun _ _ _ hpk => ?_⟩
      · cases hn
        exact h.current ho notify (by rw [hst]; rfl)
      · cases hf
      · cases hpk
  · next notify remaining notified hst =>
    cases hp
    refine h.second hst fun ho => ?_
    simpa only [Passes, hst] using hrel ho
  · next notify expires notified hst =>
    split at hp
    · cases hp
      refine ⟨fun _ _ hn => ?_, h.clean, fun _ _ hf => ?_, fun _ _ _ hpk => ?_⟩
      · cases hn
      · cases hf
      · cases hpk
    · next hnot =>
      split at hp
      · cases hp
        refine ⟨fun _ _ hn => ?_, h.clean, fun ho f _ => ?_, fun _ _ _ hpk => ?_⟩
        · cases hn
        · -- an orphaned fetch that waits has been woken
          exact absurd (by rw [hst, eq_false_of_ne_true hnot]) (h.woken ho notify expires)
        · cases hpk
      · cases hp
  · cases hp

/-- A step that is not let through breaks the release of its fetch. -/
theorem poll_not_released {p : FetchTask × Rooms} (hp : t.poll rooms now = some p)
    (ho : t.orphaned = true) (hrel : ¬ t.Passes rooms now) :
    p.1.orphaned = true ∧
      ¬ ((∀ f, p.1.stage = .returned f → f = .done) ∧ p.1.waited = false ∧
        p.1.recreated = false) := by
  unfold FetchTask.poll at hp
  split at hp
  · next hst =>
    simp only [Passes, hst] at hrel
    cases hp
    obtain ⟨hoo, -, -, -, hrec, -⟩ := t.look_kept rooms now .peeked
    refine ⟨hoo.trans ho, fun ⟨hret, _, hno⟩ => hrel ?_⟩
    have hin : t.room ∈ rooms.map := by
      by_contra hout
      rw [hrec, ho] at hno
      simp [hout] at hno
    obtain ⟨m, hm⟩ : ∃ m, rooms.mailbox? t.room t.role = some m := Rooms.mailbox?_of_mem hin
    refine ⟨m, hm, fun blob hb => ?_⟩
    have hf : (rooms.fetchNow now t.room t.role t.seq).1.1 = _ :=
      (Rooms.fetchNow_of_some hm t.seq).trans hb
    rcases t.look_stage rooms now .peeked with ⟨b, -, hs⟩ | ⟨hf', -⟩ | ⟨hf', -⟩
    · cases hret _ hs
    · rw [hf] at hf'; cases hf'
    · rw [hf] at hf'; cases hf'
  · next notify hst =>
    simp only [Passes, hst, ne_eq, Decidable.not_not] at hrel
    rw [if_pos hrel] at hp
    cases hp
    refine ⟨ho, fun ⟨hret, _, _⟩ => ?_⟩
    cases hret .pending rfl
  · next notify remaining notified hst =>
    simp only [Passes, hst] at hrel
    cases hp
    simp only [recheck]
    obtain ⟨hoo, -, -, -, hrec, -⟩ :=
      t.look_kept rooms now fun _ => .parked notify (now + remaining) notified
    refine ⟨hoo.trans ho, fun ⟨hret, hwait, hno⟩ => hrel ?_⟩
    have hin : t.room ∈ rooms.map := by
      by_contra hout
      rw [hrec, ho] at hno
      simp [hout] at hno
    obtain ⟨m, hm⟩ : ∃ m, rooms.mailbox? t.room t.role = some m := Rooms.mailbox?_of_mem hin
    refine ⟨m, hm, ?_⟩
    have hf : (rooms.fetchNow now t.room t.role t.seq).1.1 = m.peek t.seq :=
      Rooms.fetchNow_of_some hm t.seq
    rcases t.look_stage rooms now fun _ => .parked notify (now + remaining) notified with
      ⟨b, -, hs⟩ | ⟨hf', -⟩ | ⟨-, -, m', -, hs⟩
    · cases hret _ hs
    · exact hf.symm.trans hf'
    · -- the fetch decided to wait
      simp [isReturned, hs, ho] at hwait
  · next hst => simp [Passes, hst] at hrel
  · cases hp

end FetchTask

/-! ## The server -/

namespace Server

/-- Every fetch is good. -/
def Inv (s : Server) : Prop := ∀ t ∈ s.fetches, t.Good s.rooms

variable {s s' : Server} {a : ServerAct} {as : List ServerAct}

theorem inv_start (limits : Limits) : (start limits).Inv := nofun

theorem Inv.released (h : s.Inv) : s.Released := by
  refine ⟨fun t ht ho => ⟨(h t ht).done ho, (h t ht).clean⟩, fun t ht => (h t ht).returns, ?_⟩
  intro t ht notify expires hst
  cases ho : t.orphaned with
  | true => exact absurd hst ((h t ht).woken ho notify expires)
  | false =>
    obtain ⟨-, m, hm, hn⟩ := (h t ht).current ho notify (by rw [hst]; rfl)
    exact ⟨t.room, t.role, m, hm, hn⟩

/-- A request that removes nothing. -/
theorem Inv.requested (h : s.Inv) {rooms : Rooms} (hk : s.rooms.Keeps rooms)
    (woken : List NotifyId) :
    Inv { rooms, fetches := s.fetches.map (·.wake woken) } := by
  intro t ht
  obtain ⟨t₀, ht₀, rfl⟩ := List.mem_map.1 ht
  exact ((h t₀ ht₀).mono hk).wake woken

theorem Inv.removeRoom (h : s.Inv) (room : String) : (s.removeRoom room).Inv := by
  unfold Server.removeRoom
  split
  · intro t ht
    obtain ⟨t₀, ht₀, rfl⟩ := List.mem_map.1 ht
    exact (h t₀ ht₀).removed
  · exact h

theorem Inv.foldl_removeRoom (h : s.Inv) (keys : List String) :
    (keys.foldl Server.removeRoom s).Inv := by
  induction keys generalizing s with
  | nil => exact h
  | cons key keys ih => exact ih (h.removeRoom key)

/-- A step of a fetch that is not the one stepped keeps the fetch good, because the rooms stay. -/
theorem poll_keeps {t : FetchTask} {now : Instant} {p : FetchTask × Rooms}
    (hp : t.poll s.rooms now = some p) : s.rooms.Keeps p.2 := by
  obtain ⟨-, hentry⟩ | ⟨-, hsame⟩ := t.poll_cases hp
  · rw [hentry]; exact s.rooms.keeps_entry now t.room
  · rw [hsame]; exact s.rooms.keeps_refl

theorem Inv.step (h : s.Inv) (hrel : s.Releases a) (hs : s.step a = some s') : s'.Inv := by
  cases a with
  | publish now room role blob =>
    cases hs; exact h.requested (s.rooms.keeps_publish now room role blob) _
  | markDone now room role =>
    cases hs; exact h.requested (s.rooms.keeps_markDone now room role) _
  | delete room => cases hs; exact h.removeRoom room
  | evictExpired now => cases hs; exact h.foldl_removeRoom _
  | fetch now room role seq wait =>
    cases hs
    intro t ht
    rcases List.mem_append.1 ht with ht | ht
    · exact h t ht
    · obtain rfl := List.mem_singleton.1 ht
      refine ⟨fun _ _ hn => ?_, ⟨rfl, rfl⟩, fun ho => ?_, fun ho => ?_⟩
      · cases hn
      · cases ho
      · cases ho
  | poll k now =>
    simp only [Server.step, Option.map_eq_some_iff, Option.bind_eq_some_iff] at hs
    obtain ⟨p, ⟨t, hk, hp⟩, rfl⟩ := hs
    intro t' ht'
    rcases List.mem_or_eq_of_mem_set ht' with ht' | rfl
    · exact (h t' ht').mono (poll_keeps hp)
    · exact (h t (List.mem_of_getElem? hk)).poll hp (hrel k now t rfl hk)

/-- A step of an orphaned fetch that does not pass breaks the release. -/
theorem not_released_of_not_releases (hrel : ¬ s.Releases a) (hs : s.step a = some s') :
    ¬ s'.Released := by
  intro hreleased
  refine hrel fun k now t ha hk ho => ?_
  subst ha
  simp only [step, Option.map_eq_some_iff, Option.bind_eq_some_iff] at hs
  obtain ⟨p, ⟨t', hk', hp⟩, rfl⟩ := hs
  obtain rfl : t' = t := Option.some.inj (hk'.symm.trans hk)
  by_contra hno
  obtain ⟨hoo, hbad⟩ := FetchTask.poll_not_released hp ho hno
  exact hbad (hreleased.done p.1 (List.mem_set (List.getElem?_eq_some_iff.1 hk).1 p.1) hoo)

theorem releases_of_not_orphaned {k : Nat} {now : Instant} {t : FetchTask}
    (hk : s.fetches[k]? = some t) (ho : t.orphaned = false) : s.Releases (.poll k now) := by
  rintro _ _ t' ⟨⟩ hk' ho'
  obtain rfl : t = t' := Option.some.inj (hk.symm.trans hk')
  rw [ho] at ho'
  cases ho'

end Server

/-- In every run of the server, the fetches whose room is removed are released with the done
response, after at most four steps of their own, without waiting on or creating the room again, and
none waits for a notifier of no mailbox, exactly when every step of such a fetch passes. -/
theorem released_iff (limits : Limits) {as : List ServerAct} {s : Server}
    (h : Runs.run Server.step (.start limits) as = some s) :
    Runs.Along Server.step Server.Released (.start limits) as ↔
      Runs.Meets Server.step Server.Releases (.start limits) as :=
  Runs.along_iff_meets (fun _ => Server.Inv.released) (fun _ _ _ hi hrel hs => hi.step hrel hs)
    (fun _ _ _ _ hrel hs => Server.not_released_of_not_releases hrel hs)
    (Server.inv_start limits) h

/-- A fetch waits when its room is deleted; the room is created and marked before it looks again,
and it returns so. -/
theorem released_of_marked :
    ∃ s, Runs.run Server.step (.start ⟨300, 0, 0⟩)
        [.fetch 0 "r" .offerer 0 10, .poll 0 0, .poll 0 0, .poll 0 0, .delete "r",
          .markDone 1 "r" .offerer, .poll 0 2, .poll 0 2] = some s ∧
      (s.fetches[0]?).map FetchTask.stage = some (.returned .done) ∧
      Runs.Along Server.step Server.Released (.start ⟨300, 0, 0⟩)
        [.fetch 0 "r" .offerer 0 10, .poll 0 0, .poll 0 0, .poll 0 0, .delete "r",
          .markDone 1 "r" .offerer, .poll 0 2, .poll 0 2] := by
  refine ⟨_, rfl, rfl, (@released_iff ⟨300, 0, 0⟩
    [.fetch 0 "r" .offerer 0 10, .poll 0 0, .poll 0 0, .poll 0 0, .delete "r",
      .markDone 1 "r" .offerer, .poll 0 2, .poll 0 2] _ rfl).2 ?_⟩
  refine ⟨nofun, fun _ hs => ?_⟩
  cases hs
  refine ⟨Server.releases_of_not_orphaned rfl rfl, fun _ hs => ?_⟩
  cases hs
  refine ⟨Server.releases_of_not_orphaned rfl rfl, fun _ hs => ?_⟩
  cases hs
  refine ⟨Server.releases_of_not_orphaned rfl rfl, fun _ hs => ?_⟩
  cases hs
  refine ⟨nofun, fun _ hs => ?_⟩
  cases hs
  refine ⟨nofun, fun _ hs => ?_⟩
  cases hs
  -- the fetch has been woken, and looks at the mailbox that was marked
  refine ⟨?_, fun _ hs => ?_⟩
  · rintro _ _ _ ⟨⟩ ⟨⟩ -
    trivial
  cases hs
  refine ⟨?_, fun _ _ => trivial⟩
  rintro _ _ _ ⟨⟩ ⟨⟩ -
  exact ⟨_, rfl, nofun⟩

/-- A fetch waits when its room is deleted; it wakes up, creates the room again and waits on. -/
theorem fetch_recreates_room :
    ¬ Runs.Along Server.step Server.Released (.start ⟨300, 0, 0⟩)
      [.fetch 0 "r" .offerer 0 10, .poll 0 0, .poll 0 0, .poll 0 0, .delete "r", .poll 0 1,
        .poll 0 1, .poll 0 1, .poll 0 1] := by
  intro h
  have hreleased := h _ List.prefix_rfl _ rfl
  have hrecreated := (hreleased.done _ List.mem_cons_self rfl).2.2
  cases hrecreated

end WebrtcDatachannels.Signaling
