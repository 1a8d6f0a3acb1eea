import WebrtcDatachannels.Signaling.Log
import WebrtcDatachannels.Signaling.LongPoll

/-!
# The capacity caps of the room store

`Limits::max_rooms` and `Limits::max_blobs_per_mailbox`, over any sequence of requests to the server
and direct calls of `fetch_now`. `publish` checks both caps; `mark_done` and `fetch_now` create a
room without looking at them. The cap on blobs always holds. That on rooms holds in every reached
state exactly when no `mark_done` and no look of a fetch creates a room in a store that is full
(`caps_hold_iff`).
-/

namespace WebrtcDatachannels.Signaling

/-- A request to the server, or a direct call of `fetch_now`. -/
inductive StoreAct where
  | request (a : ServerAct)
  | fetchNow (now : Instant) (room : String) (role : Role) (seq : Nat)

namespace Rooms

/-- The number of live rooms. Source: `Rooms::room_count`. -/
def roomCount (s : Rooms) : Nat := s.map.keys.length

/-- The live rooms and the blobs of each mailbox are within their caps. -/
structure Within (s : Rooms) : Prop where
  rooms : s.limits.maxRooms ≠ 0 → s.roomCount ≤ s.limits.maxRooms
  blobs : s.limits.maxBlobsPerMailbox ≠ 0 → ∀ room role m, s.mailbox? room role = some m →
    m.blobs.length ≤ s.limits.maxBlobsPerMailbox

/-- The store is within its caps, and a publish that is refused for capacity leaves every mailbox
and the set of rooms as they were. -/
structure Capped (s : Rooms) : Prop extends s.Within where
  refused : ∀ now room role blob, (s.publish now room role blob).1 = .capacity →
    (∀ room' role', (s.publish now room role blob).2.2.mailbox? room' role' =
      s.mailbox? room' role') ∧
    ∀ room', room' ∈ (s.publish now room role blob).2.2.map ↔ room' ∈ s.map

end Rooms

namespace Server

/-- One step of the server, or a call of `fetch_now`. -/
def stepStore (s : Server) : StoreAct → Option Server
  | .request a => s.step a
  | .fetchNow now room role seq => some { s with rooms := (s.rooms.fetchNow now room role seq).2 }

/-- A mailbox is marked or looked at only where that creates no room in a full store. -/
def CreatesWithin (s : Server) : StoreAct → Prop
  | .request (.markDone _ room _) | .fetchNow _ room _ _ => s.rooms.full room = false
  | .request (.poll k _) => ∀ t, s.fetches[k]? = some t →
    t.stage = .top ∨ (∃ notify remaining notified, t.stage = .armed notify remaining notified) →
      s.rooms.full t.room = false
  | _ => True

end Server

/-! ## The operations of the store -/

namespace Rooms

variable {s : Rooms} {now : Instant} {room : String} {role : Role} {blob : Bytes}

/-- The rooms after an entry: one more if the room was not there. -/
theorem roomCount_entry (s : Rooms) (now : Instant) (room : String) :
    (s.entry now room).2.roomCount = if room ∈ s.map then s.roomCount else s.roomCount + 1 := by
  unfold entry
  by_cases hin : room ∈ s.map
  · obtain ⟨r, hr⟩ := mem_iff_lookup.1 hin
    have hpos : 0 < s.map.keys.length := List.length_pos_of_mem (AList.mem_keys.1 hin)
    simp only [hr, roomCount, AList.keys_insert, List.length_cons, hin, if_true,
      List.length_erase_of_mem (AList.mem_keys.1 hin)]
    omega
  · have hnone : s.map.lookup room = none := AList.lookup_eq_none.2 hin
    simp only [hnone, roomCount, AList.keys_insert, List.length_cons, hin, if_false]
    rw [List.erase_of_not_mem fun h => hin (AList.mem_keys.2 h)]

/-- A write to an entry creates no room. -/
theorem roomCount_write (s : Rooms) (now : Instant) (room : String) (role : Role) (m : Mailbox) :
    ((s.entry now room).2.write room (s.entry now room).1 role m).roomCount =
      (s.entry now room).2.roomCount := by
  have hin : room ∈ (s.entry now room).2.map :=
    mem_iff_lookup.2 ⟨_, by rw [lookup_entry, if_pos rfl]⟩
  have hpos : 0 < (s.entry now room).2.map.keys.length :=
    List.length_pos_of_mem (AList.mem_keys.1 hin)
  simp only [write, roomCount, AList.keys_insert, List.length_cons,
    List.length_erase_of_mem (AList.mem_keys.1 hin)]
  omega

theorem full_iff (s : Rooms) (room : String) :
    s.full room = true ↔
      room ∉ s.map ∧ s.limits.maxRooms ≠ 0 ∧ s.limits.maxRooms ≤ s.roomCount := by
  simp only [full, roomCount, Bool.and_eq_true, decide_eq_true_eq, ge_iff_le, and_assoc]

/-- An entry in a store that is not full keeps the caps. -/
theorem Within.entry (h : s.Within) (hf : s.full room = false) (now : Instant) :
    (s.entry now room).2.Within := by
  refine ⟨fun hmax => ?_, fun hmax room' role m hm => ?_⟩
  · rw [entry_limits] at hmax ⊢
    rw [roomCount_entry]
    split
    · exact h.rooms hmax
    · next hin =>
      have hno : ¬ s.limits.maxRooms ≤ s.roomCount := by
        intro hle
        rw [(s.full_iff room).2 ⟨hin, hmax, hle⟩] at hf
        cases hf
      omega
  · rw [entry_limits] at hmax ⊢
    obtain hm | ⟨hnil, -⟩ := mailbox?_of_entry hm
    · exact h.blobs hmax room' role m hm
    · rw [hnil]; exact Nat.zero_le _

/-- An entry that creates a room in a full store exceeds the cap on rooms. -/
theorem exceeds_entry (hf : s.full room = true) (now : Instant) :
    s.limits.maxRooms ≠ 0 ∧ s.limits.maxRooms < (s.entry now room).2.roomCount := by
  obtain ⟨hin, hmax, hle⟩ := (s.full_iff room).1 hf
  rw [roomCount_entry, if_neg hin]
  exact ⟨hmax, Nat.lt_succ_of_le hle⟩

theorem not_within_entry (hf : s.full room = true) (now : Instant) :
    ¬ (s.entry now room).2.Within := by
  intro h
  obtain ⟨hmax, hlt⟩ := exceeds_entry hf now
  have hrooms := h.rooms (by rw [entry_limits]; exact hmax)
  rw [entry_limits] at hrooms
  exact absurd hrooms (Nat.not_le.2 hlt)

/-- A write of a mailbox within the cap keeps the caps. -/
theorem Within.write {m : Mailbox} (h : (s.entry now room).2.Within)
    (hm : s.limits.maxBlobsPerMailbox ≠ 0 → m.blobs.length ≤ s.limits.maxBlobsPerMailbox) :
    ((s.entry now room).2.write room (s.entry now room).1 role m).Within := by
  refine ⟨fun hmax => ?_, fun hmax room' role' m' hm' => ?_⟩
  · rw [roomCount_write]
    exact h.rooms hmax
  · rw [mailbox?_write] at hm'
    split at hm'
    · cases hm'
      have hlim : ((s.entry now room).2.write room (s.entry now room).1 role m).limits = s.limits :=
        entry_limits s now room
      rw [hlim] at hmax ⊢
      exact hm hmax
    · exact h.blobs hmax room' role' m' hm'

/-- The mailbox of an entry is within the cap. -/
theorem Within.entry_blobs (h : s.Within) (hmax : s.limits.maxBlobsPerMailbox ≠ 0) :
    ((s.entry now room).1.mailbox role).blobs.length ≤ s.limits.maxBlobsPerMailbox := by
  obtain hm | ⟨hnil, -⟩ := mailbox?_of_entry (s.mailbox?_entry now room role)
  · exact h.blobs hmax room role _ hm
  · rw [hnil]; exact Nat.zero_le _

theorem Within.publish (h : s.Within) (now : Instant) (room : String) (role : Role)
    (blob : Bytes) : (s.publish now room role blob).2.2.Within := by
  simp only [Rooms.publish]
  split
  · exact h
  · next hf =>
    have hentry := h.entry (eq_false_of_ne_true hf) now
    split
    · exact hentry
    · split
      · exact hentry
      · next hc =>
        refine hentry.write fun hmax => ?_
        -- the mailbox is not crowded
        simp only [crowded, Bool.and_eq_true, decide_eq_true_eq, not_and, ne_eq, hmax,
          not_false_eq_true, true_implies, ge_iff_le, Nat.not_le] at hc
        rw [List.length_append, List.length_singleton]
        exact hc

theorem Within.markDone (h : s.Within) (hf : s.full room = false) (now : Instant) (role : Role) :
    (s.markDone now room role).2.2.Within :=
  (h.entry hf now).write fun hmax => h.entry_blobs hmax

/-- A mark that creates a room in a full store exceeds the cap on rooms. -/
theorem not_within_markDone (hf : s.full room = true) (now : Instant) (role : Role) :
    ¬ (s.markDone now room role).2.2.Within := by
  intro h
  obtain ⟨hmax, hlt⟩ := exceeds_entry hf now
  have hlim : (s.markDone now room role).2.2.limits = s.limits := entry_limits s now room
  have hrooms := h.rooms (by rw [hlim]; exact hmax)
  rw [hlim, Rooms.markDone, roomCount_write] at hrooms
  exact absurd hrooms (Nat.not_le.2 hlt)

theorem Within.remove (h : s.Within) (room : String) : (s.remove room).2.Within := by
  refine ⟨fun hmax => ?_, fun hmax room' role m hm => ?_⟩
  · rw [remove_limits] at hmax ⊢
    refine Nat.le_trans ?_ (h.rooms hmax)
    unfold Rooms.remove
    split
    · simp only [roomCount, AList.keys_erase]
      exact List.length_erase_le
    · exact Nat.le_refl _
  · rw [remove_limits] at hmax ⊢
    refine h.blobs hmax room' role m ?_
    rw [mailbox?, lookup_remove] at hm
    split at hm
    · cases hm
    · exact hm

/-- A publish that is refused for capacity finds the store full, or a mailbox that is there at its
cap; it changes no mailbox and creates no room. -/
theorem refused_unchanged (h : (s.publish now room role blob).1 = .capacity) :
    (∀ room' role', (s.publish now room role blob).2.2.mailbox? room' role' =
      s.mailbox? room' role') ∧
    ∀ room', room' ∈ (s.publish now room role blob).2.2.map ↔ room' ∈ s.map := by
  simp only [Rooms.publish] at h ⊢
  split at h
  · next hf => rw [if_pos hf]; exact ⟨fun _ _ => rfl, fun _ => Iff.rfl⟩
  · next hf =>
    rw [if_neg hf]
    split at h
    · cases h
    · next hd =>
      rw [if_neg hd]
      split at h
      · next hc =>
        rw [if_pos hc]
        -- a mailbox at its cap is not empty, so its room was there
        have hin : room ∈ s.map := by
          by_contra hout
          have hnone : s.map.lookup room = none := AList.lookup_eq_none.2 hout
          have hnil : ((s.entry now room).1.mailbox role).blobs = [] := by
            rw [(s.entry_mailbox now room role).1]; simp [mailbox?, hnone]
          rw [hnil] at hc
          simp [crowded] at hc
        refine ⟨fun room' role' => ?_, fun room' => ?_⟩
        · rw [mailbox?_entry_eq]
          split
          · next he => subst he; exact (entry_of_mem hin role').symm
          · rfl
        · refine ⟨fun hin' => ?_, mem_entry now room⟩
          by_cases he : room' = room
          · rw [he]; exact hin
          · rw [mem_iff_lookup, lookup_entry, if_neg he, ← mem_iff_lookup] at hin'
            exact hin'
      · cases h

end Rooms

/-! ## The server -/

namespace Server

variable {s s' : Server} {a : StoreAct} {as : List StoreAct}

/-- A store within its caps, with its refusals. -/
theorem capped_of_within (h : s.rooms.Within) : s.rooms.Capped :=
  { h with refused := fun _ _ _ _ hr => Rooms.refused_unchanged hr }

theorem within_removeRoom (h : s.rooms.Within) (room : String) :
    (s.removeRoom room).rooms.Within := by
  unfold removeRoom
  split
  · exact h.remove room
  · exact h

theorem within_foldl_removeRoom (h : s.rooms.Within) (keys : List String) :
    (keys.foldl removeRoom s).rooms.Within := by
  induction keys generalizing s with
  | nil => exact h
  | cons key keys ih => exact ih (within_removeRoom h key)

theorem within_step (h : s.rooms.Within) (hC : s.CreatesWithin a) (hs : s.stepStore a = some s') :
    s'.rooms.Within := by
  cases a with
  | fetchNow now room role seq => cases hs; exact h.entry hC now
  | request a =>
    cases a with
    | publish now room role blob => cases hs; exact h.publish now room role blob
    | markDone now room role => cases hs; exact h.markDone hC now role
    | delete room => cases hs; exact within_removeRoom h room
    | evictExpired now => cases hs; exact within_foldl_removeRoom h _
    | fetch now room role seq wait => cases hs; exact h
    | poll k now =>
      simp only [stepStore, step, Option.map_eq_some_iff, Option.bind_eq_some_iff] at hs
      obtain ⟨p, ⟨t, hk, hp⟩, rfl⟩ := hs
      obtain ⟨hlook, he⟩ | ⟨-, he⟩ := t.poll_cases hp
      · simp only [he]; exact h.entry (hC t hk hlook) now
      · simp only [he]; exact h

/-- A mark or a look that creates a room in a full store exceeds the cap on rooms. -/
theorem not_within_step (hC : ¬ s.CreatesWithin a) (hs : s.stepStore a = some s') :
    ¬ s'.rooms.Within := by
  cases a with
  | fetchNow now room role seq =>
    cases hs
    exact Rooms.not_within_entry (eq_true_of_ne_false hC) now
  | request a =>
    cases a with
    | markDone now room role =>
      cases hs
      exact Rooms.not_within_markDone (eq_true_of_ne_false hC) now role
    | poll k now =>
      simp only [CreatesWithin, not_forall] at hC
      obtain ⟨t, hk, hlook, hfull⟩ := hC
      simp only [stepStore, step, hk, Option.bind_some, Option.map_eq_some_iff] at hs
      obtain ⟨p, hp, rfl⟩ := hs
      obtain ⟨-, he⟩ | ⟨hno, -⟩ := t.poll_cases hp
      · simp only [he]
        exact Rooms.not_within_entry (eq_true_of_ne_false hfull) now
      · exact absurd hlook hno
    | publish | delete | evictExpired | fetch => exact absurd trivial hC

theorem within_start (limits : Limits) : (start limits).rooms.Within :=
  ⟨fun _ => Nat.zero_le _, fun _ _ _ _ hm => by cases hm⟩

end Server

/-- Over any requests and direct calls of `fetch_now`, in any order: every reached store is within
its caps, with refused publishes that change nothing, exactly when no mark and no look of a fetch
creates a room in a store that is full. -/
theorem caps_hold_iff (limits : Limits) {as : List StoreAct} {s : Server}
    (h : Runs.run Server.stepStore (.start limits) as = some s) :
    Runs.Along Server.stepStore (fun s => s.rooms.Capped) (.start limits) as ↔
      Runs.Meets Server.stepStore Server.CreatesWithin (.start limits) as :=
  Runs.along_iff_meets (I := fun s : Server => s.rooms.Within)
    (fun _ hw => Server.capped_of_within hw) (fun _ _ _ hw hC hs => Server.within_step hw hC hs)
    (fun _ _ _ _ hC hs hcap => Server.not_within_step hC hs hcap.toWithin)
    (Server.within_start limits) h

/-- With room for one room: a room is published to, looked at and deleted, and then another is
fetched from. -/
theorem caps_hold_of_one_room :
    Runs.Along Server.stepStore (fun s => s.rooms.Capped) (.start ⟨300, 1, 1⟩)
      [.request (.publish 0 "r" .offerer [1]), .fetchNow 1 "r" .offerer 0,
        .request (.delete "r"), .request (.fetch 2 "q" .answerer 0 10), .request (.poll 0 3)] := by
  have hrun : ∃ s, Runs.run Server.stepStore (.start ⟨300, 1, 1⟩)
      [.request (.publish 0 "r" .offerer [1]), .fetchNow 1 "r" .offerer 0,
        .request (.delete "r"), .request (.fetch 2 "q" .answerer 0 10), .request (.poll 0 3)] =
      some s := ⟨_, rfl⟩
  obtain ⟨s, h⟩ := hrun
  refine (caps_hold_iff ⟨300, 1, 1⟩ h).2 ?_
  refine (Runs.meets_cons rfl).2 ⟨trivial, ?_⟩
  refine (Runs.meets_cons rfl).2 ⟨rfl, ?_⟩
  iterate 2 refine (Runs.meets_cons rfl).2 ⟨trivial, ?_⟩
  refine ⟨fun t ht _ => ?_, fun _ _ => trivial⟩
  rw [← Option.some.inj ht]
  decide

/-- With room for one room: a room is published to, and a fetch from another creates that one. -/
theorem fetch_exceeds_cap :
    ¬ Runs.Along Server.stepStore (fun s => s.rooms.Capped) (.start ⟨300, 1, 1⟩)
      [.request (.publish 0 "r" .offerer [1]), .request (.fetch 1 "q" .answerer 0 10),
        .request (.poll 0 2)] := by
  intro h
  have hrooms := (h _ List.prefix_rfl _ rfl).rooms (by decide)
  revert hrooms
  decide

end WebrtcDatachannels.Signaling
