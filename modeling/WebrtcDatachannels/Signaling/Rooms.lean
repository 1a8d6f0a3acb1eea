import Mathlib.Data.List.AList
import WebrtcDatachannels.Wit

/-!
# The room store of the signaling server

`conformance/signaling/server/src/state.rs`. Every operation of `Rooms` takes the lock of the map
for its whole body, so it is one function on the store. A `Notify` is named by a number; the store
counts those it has created, so that the mailboxes of a room that is created again get new ones. An
operation returns the notifiers it wakes beside its result.
-/

namespace WebrtcDatachannels.Signaling

/-- A point in time, and a duration. -/
abbrev Instant := Nat

/-- A `tokio::sync::Notify`. -/
abbrev NotifyId := Nat

/-- A signaling role. Source: `Role`. -/
inductive Role where
  | offerer
  | answerer
deriving DecidableEq, Repr

/-- Outcome of a fetch of a single sequence number. Source: `Fetch`. -/
inductive Fetch where
  | blob (blob : Bytes)
  | done
  | pending
deriving DecidableEq, Repr

/-- Result of a publish attempt. Source: `Publish`. -/
inductive Publish where
  | seq (n : Nat)
  | done
  | capacity
deriving DecidableEq, Repr

/-- One append-only, ordered mailbox with a `done` flag. Source: `Mailbox`. -/
structure Mailbox where
  blobs : List Bytes
  done : Bool
  notify : NotifyId
deriving DecidableEq, Repr

/-- `Mailbox::default()`. -/
def Mailbox.default (notify : NotifyId) : Mailbox := { blobs := [], done := false, notify }

/-- Classify a fetch of `seq` against the current mailbox contents. Source: `Mailbox::peek`. -/
def Mailbox.peek (m : Mailbox) (seq : Nat) : Fetch :=
  match m.blobs[seq]? with
  | some blob => .blob blob
  | none => if m.done then .done else .pending

/-- A room: two mailboxes plus a last-touched timestamp. Source: `Room`. -/
structure Room where
  offerer : Mailbox
  answerer : Mailbox
  lastTouched : Instant
deriving DecidableEq, Repr

namespace Room

/-- `Room::new`, with its two notifiers. -/
def new (now : Instant) (notify : NotifyId) : Room :=
  { offerer := .default notify, answerer := .default (notify + 1), lastTouched := now }

/-- Source: `Room::mailbox`. -/
def mailbox (r : Room) : Role → Mailbox
  | .offerer => r.offerer
  | .answerer => r.answerer

/-- Write through the reference that `mailbox_mut` returns. -/
def setMailbox (r : Room) (m : Mailbox) : Role → Room
  | .offerer => { r with offerer := m }
  | .answerer => { r with answerer := m }

@[simp] theorem mailbox_setMailbox (r : Room) (m : Mailbox) (role : Role) :
    (r.setMailbox m role).mailbox role = m := by
  cases role <;> rfl

theorem mailbox_setMailbox_ne (r : Room) (m : Mailbox) {role role' : Role} (h : role' ≠ role) :
    (r.setMailbox m role).mailbox role' = r.mailbox role' := by
  cases role <;> cases role' <;> first | rfl | exact absurd rfl h

end Room

/-- Configuration limits applied by the store. Source: `Limits`. -/
structure Limits where
  roomTtl : Nat
  maxRooms : Nat
  maxBlobsPerMailbox : Nat
deriving DecidableEq, Repr

/-- The in-memory room store, with the number of notifiers created. Source: `Rooms`. -/
structure Rooms where
  limits : Limits
  map : AList fun _ : String => Room
  notifies : Nat

namespace Rooms

/-- Source: `Rooms::new`. -/
def new (limits : Limits) : Rooms := { limits, map := ∅, notifies := 0 }

/-- `map.entry(room).or_insert_with(|| Room::new(now))`, with `entry.last_touched = now`: the room,
and the store in which it may be new. -/
def entry (s : Rooms) (now : Instant) (room : String) : Room × Rooms :=
  match s.map.lookup room with
  | some r =>
    ({ r with lastTouched := now },
      { s with map := s.map.insert room { r with lastTouched := now } })
  | none =>
    (.new now s.notifies,
      { s with map := s.map.insert room (.new now s.notifies), notifies := s.notifies + 2 })

/-- Write to a mailbox of the entry `r`. -/
def write (s : Rooms) (room : String) (r : Room) (role : Role) (m : Mailbox) : Rooms :=
  { s with map := s.map.insert room (r.setMailbox m role) }

/-- There is no room for a further mailbox. -/
def full (s : Rooms) (room : String) : Bool :=
  room ∉ s.map && s.limits.maxRooms ≠ 0 && s.map.keys.length ≥ s.limits.maxRooms

/-- A mailbox of this length takes no further blob. -/
def crowded (s : Rooms) (length : Nat) : Bool :=
  s.limits.maxBlobsPerMailbox ≠ 0 && length ≥ s.limits.maxBlobsPerMailbox

/-- Append `blob` to `role`'s mailbox in `room`, creating the room if needed. Source:
`Rooms::publish`. -/
def publish (s : Rooms) (now : Instant) (room : String) (role : Role) (blob : Bytes) :
    Publish × List NotifyId × Rooms :=
  if s.full room then (.capacity, [], s)
  else
    let e := s.entry now room
    let mailbox := e.1.mailbox role
    if mailbox.done then (.done, [], e.2)
    else if s.crowded mailbox.blobs.length then (.capacity, [], e.2)
    else
      (.seq mailbox.blobs.length, [mailbox.notify],
        e.2.write room e.1 role { mailbox with blobs := mailbox.blobs ++ [blob] })

/-- Mark `role`'s mailbox in `room` done; returns the frozen blob count. Source:
`Rooms::mark_done`. -/
def markDone (s : Rooms) (now : Instant) (room : String) (role : Role) :
    Nat × List NotifyId × Rooms :=
  let e := s.entry now room
  let mailbox := e.1.mailbox role
  (mailbox.blobs.length, [mailbox.notify],
    e.2.write room e.1 role { mailbox with done := true })

/-- Non-blocking classification of a fetch of `role`'s mailbox at `seq`, with the mailbox's
notifier. Source: `Rooms::fetch_now`. -/
def fetchNow (s : Rooms) (now : Instant) (room : String) (role : Role) (seq : Nat) :
    (Fetch × NotifyId) × Rooms :=
  let e := s.entry now room
  (((e.1.mailbox role).peek seq, (e.1.mailbox role).notify), e.2)

/-- `map.remove(room)`, with the notifiers of the removed room, which are woken. -/
def remove (s : Rooms) (room : String) : List NotifyId × Rooms :=
  match s.map.lookup room with
  | some r => ([r.offerer.notify, r.answerer.notify], { s with map := s.map.erase room })
  | none => ([], s)

/-- Delete a room; returns whether it existed. Source: `Rooms::delete`. -/
def delete (s : Rooms) (room : String) : Bool × List NotifyId × Rooms :=
  (room ∈ s.map, s.remove room)

/-- The rooms untouched for longer than the configured TTL. -/
def expired (s : Rooms) (now : Instant) : List String :=
  s.map.keys.filter fun room =>
    (s.map.lookup room).any fun r => now - r.lastTouched > s.limits.roomTtl

/-- Evict rooms untouched for longer than the configured TTL; returns their number. Source:
`Rooms::evict_expired`. -/
def evictExpired (s : Rooms) (now : Instant) : Nat × List NotifyId × Rooms :=
  let keys := s.expired now
  (keys.length, keys.foldl
    (fun (p : List NotifyId × Rooms) room => (p.1 ++ (p.2.remove room).1, (p.2.remove room).2))
    ([], s))

/-! ## Mailboxes -/

/-- A mailbox of a room that is there. -/
def mailbox? (s : Rooms) (room : String) (role : Role) : Option Mailbox :=
  (s.map.lookup room).map (·.mailbox role)

section
variable {s : Rooms} {now : Instant} {room : String} {role : Role}

/-- The mailbox of an entry: the one that is there, or an empty one. -/
theorem entry_mailbox (s : Rooms) (now : Instant) (room : String) (role : Role) :
    ((s.entry now room).1.mailbox role).blobs = ((s.mailbox? room role).map (·.blobs)).getD [] ∧
      ((s.entry now room).1.mailbox role).done =
        ((s.mailbox? room role).map (·.done)).getD false := by
  unfold entry mailbox?
  cases s.map.lookup room with
  | some r => cases role <;> exact ⟨rfl, rfl⟩
  | none => cases role <;> exact ⟨rfl, rfl⟩

/-- The store after `entry`: the room is there with the entry's mailboxes, and the others are as
they were. -/
theorem lookup_entry (s : Rooms) (now : Instant) (room room' : String) :
    (s.entry now room).2.map.lookup room' =
      if room' = room then some (s.entry now room).1 else s.map.lookup room' := by
  unfold entry
  cases s.map.lookup room with
  | some r =>
    by_cases h : room' = room
    · subst h; simp
    · simp [h, AList.lookup_insert_ne h]
  | none =>
    by_cases h : room' = room
    · subst h; simp
    · simp [h, AList.lookup_insert_ne h]

theorem lookup_write (s : Rooms) (room room' : String) (r : Room) (role : Role) (m : Mailbox) :
    (s.write room r role m).map.lookup room' =
      if room' = room then some (r.setMailbox m role) else s.map.lookup room' := by
  unfold write
  by_cases h : room' = room
  · subst h; simp
  · simp [h, AList.lookup_insert_ne h]

@[simp] theorem entry_limits (s : Rooms) (now : Instant) (room : String) :
    (s.entry now room).2.limits = s.limits := by
  unfold entry
  cases s.map.lookup room <;> rfl

theorem mem_iff_lookup : room ∈ s.map ↔ ∃ r, s.map.lookup room = some r := by
  rw [← AList.lookup_isSome, Option.isSome_iff_exists]

/-- A room that is there keeps its mailboxes over `entry`. -/
theorem entry_of_mem (h : room ∈ s.map) (role : Role) :
    s.mailbox? room role = some ((s.entry now room).1.mailbox role) := by
  obtain ⟨r, hr⟩ := mem_iff_lookup.1 h
  unfold mailbox? entry
  rw [hr]
  cases role <;> rfl

theorem lookup_remove (s : Rooms) (room room' : String) :
    (s.remove room).2.map.lookup room' =
      if room' = room then none else s.map.lookup room' := by
  unfold remove
  cases hr : s.map.lookup room with
  | some r =>
    by_cases h : room' = room
    · subst h; simp
    · simp [h, AList.lookup_erase_ne h]
  | none =>
    by_cases h : room' = room
    · subst h; simp [hr]
    · simp [h]

end

end Rooms

end WebrtcDatachannels.Signaling
